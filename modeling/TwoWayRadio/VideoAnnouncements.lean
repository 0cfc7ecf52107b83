import TwoWayRadio.HubEffects
import TwoWayRadio.SerialHub
import TwoWayRadio.VideoSlot

/-! The end of a video: who is told, with handlers that run one at a time. -/
namespace TwoWayRadio
open Interleaving Transition

/-- Who is showing a video: since its last `video_call_start` it has not ended it, switched away
or disconnected. -/
def noteVideo (r : Request) (h h' : Hub) (showing : ClientRef → Bool) : ClientRef → Bool :=
  match r with
  | .signal x (.videoCallStart _) _ => Function.update showing x true
  | .signal x .videoCallEnd _ | .disconnect x => Function.update showing x false
  | .signal x (.joinChannel _) _ | .signal x (.createChannel _) _ =>
    if (h'.heap x).currentChannelID = (h.heap x).currentChannelID then showing
    else Function.update showing x false
  | _ => showing

/-- The step is the end of the video of `x`. -/
structure EndsShow (s : SerialHub (ClientRef → Bool)) (e : SerialEvent) (x : ClientRef)
    (t : SerialHub (ClientRef → Bool)) : Prop where
  step : serialStep noteVideo s e = some t
  shown : s.history x = true
  ended : t.history x = false

/-- Client `y` is told that the video of the client with this ID on channel `c` is over. -/
def ToldOfEnd (c : ChannelID) (id : String) (y : ClientRef) (sent : List Delivery) : Prop :=
  ∃ p now, p.channelID = c ∧ p.senderID = id ∧
    Delivery.enqueue y .send (.json (.videoCallEnd p) now) ∈ sent

/-- The end of a video is announced to everyone who remains on its channel. -/
def EndAnnounced (s : SerialHub (ClientRef → Bool)) (e : SerialEvent) : Prop :=
  ∀ x t, EndsShow s e x t → ∀ y, t.hub.Subscribed (s.hub.heap x).currentChannelID y →
    ToldOfEnd (s.hub.heap x).currentChannelID (s.hub.heap x).id y
      (t.hub.outbox.drop s.hub.outbox.length)

/-- The slot of channel `c` holds a video of the client with this ID. -/
def Hub.Shows (c : ChannelID) (id : String) (h : Hub) : Prop :=
  ∃ v, h.activeVideoByChannel c = some v ∧ v.senderID = id

def SerialEvent.departs : SerialEvent → Bool
  | serve r => r.departs
  | _ => false

/-- A client that ends its video still has the slot of its channel, or leaves it to nobody. -/
def EndsOwnSlot (s : SerialHub (ClientRef → Bool)) (e : SerialEvent) : Prop :=
  ∀ x t, EndsShow s e x t → s.hub.Shows (s.hub.heap x).currentChannelID (s.hub.heap x).id ∨
    ∀ y, s.hub.Subscribed (s.hub.heap x).currentChannelID y → y = x ∧ e.departs = true

/-- The calls that neither change a slot nor announce an end. -/
def HubOp.withoutVideo (op : HubOp) : Bool :=
  match op, op.message with
  | deleteVideo _, _ | startVideo .., _ | endVideo _, _ => false
  | _, some (.videoCallEnd _) => false
  | _, _ => true

/-- The call is made for `x` and has nothing to do with videos. -/
def HubOp.Aside (x : ClientRef) (op : HubOp) : Prop := Own x op ∧ op.withoutVideo = true

section Announces

open Hub Prog

variable {α β : Type} {x y : ClientRef} {c : ChannelID} {id : String} {h : Hub}

theorem activeVideo_of_withoutVideo {op : HubOp} (hop : op.withoutVideo = true) :
    (op.run h).2.activeVideoByChannel c = h.activeVideoByChannel c := by
  by_contra hne
  cases HubOp.videoCall hne <;> cases hop

theorem not_told_of_withoutVideo {op : HubOp} (hop : op.withoutVideo = true) :
    ¬ ToldOfEnd c id y (op.sends h) := by
  rintro ⟨p, now, _, _, hd⟩
  obtain ⟨hmsg, _⟩ := HubOp.message_of_sends hd
  cases op <;> cases hmsg <;> cases hop

/-- Those who stay behind on the channel are told of the end of the video of `x` if and only if
the slot holds it. -/
def Announces (x : ClientRef) (c : ChannelID) (p : HubProg α) (h : Hub) : Prop :=
  ∀ y, y ≠ x → h.Subscribed c y →
    (ToldOfEnd c (h.heap x).id y (sent p h) ↔ h.Shows c (h.heap x).id)

theorem toldOfEnd_append {l₁ l₂ : List Delivery} :
    ToldOfEnd c id y (l₁ ++ l₂) ↔ ToldOfEnd c id y l₁ ∨ ToldOfEnd c id y l₂ := by
  simp only [ToldOfEnd, List.mem_append]
  constructor
  · rintro ⟨p, now, hc, hid, hd | hd⟩
    · exact Or.inl ⟨p, now, hc, hid, hd⟩
    · exact Or.inr ⟨p, now, hc, hid, hd⟩
  · rintro (⟨p, now, hc, hid, hd⟩ | ⟨p, now, hc, hid, hd⟩)
    · exact ⟨p, now, hc, hid, Or.inl hd⟩
    · exact ⟨p, now, hc, hid, Or.inr hd⟩

/-- A call that has nothing to do with videos may come first. -/
theorem announces_call {op : HubOp} {k : op.Res → HubProg α} (hop : op.Aside x)
    (hk : Announces x c (k (op.run h).1) (op.run h).2) : Announces x c (.call op k) h := by
  intro y hy hsub
  have he : Elsewhere y h (op.run h).2 := elsewhere_run (fun heq => hy (hop.1 y heq)) h
  have hrest := hk y hy ((he.subscribed c).mpr hsub)
  rw [HubOp.id_run, Hub.Shows, activeVideo_of_withoutVideo hop.2] at hrest
  rw [sent_call, toldOfEnd_append, hrest]
  exact or_iff_right (not_told_of_withoutVideo hop.2)

theorem announces_bind {p : HubProg α} {f : α → HubProg β} (hp : p.All (HubOp.Aside x))
    (hf : Announces x c (f (p.exec HubOp.run h).1) (after p h)) : Announces x c (p >>= f) h := by
  induction p generalizing h with
  | ret a => exact hf
  | call op k ih => exact announces_call hp.1 (ih _ (hp.2 _) hf)

theorem not_told_of_aside {p : HubProg α} (hp : p.All (HubOp.Aside x)) :
    ¬ ToldOfEnd c id y (sent p h) := by
  induction p generalizing h with
  | ret a =>
    rintro ⟨p, now, _, _, hd⟩
    cases hd
  | call op k ih =>
    rw [sent_call, toldOfEnd_append]
    exact not_or.mpr ⟨not_told_of_withoutVideo hp.1.2, ih _ (hp.2 _)⟩

theorem shows_iff {v : Option VideoSignalingPayload} (hv : h.activeVideoByChannel c = v) :
    h.Shows c id ↔ (v.any fun w => w.senderID == id) = true := by
  rw [Hub.Shows, hv]
  cases v <;> simp

theorem announces_endVideoOf {post : HubProg α} (hpost : post.All (HubOp.Aside x)) :
    Announces x c (endVideoOf c x >>= fun _ => post) h := by
  intro y _ hsub
  rw [endVideoOf, shows_iff rfl]
  simp only [perform_bind, call_bind, sent_call]
  rw [toldOfEnd_append, toldOfEnd_append, when]
  split_ifs with hown
  · refine iff_of_true (Or.inr (Or.inr ?_)) hown
    simp only [perform_bind, call_bind, sent_call]
    rw [toldOfEnd_append, toldOfEnd_append]
    refine Or.inr (Or.inl ⟨_, _, rfl, rfl, List.mem_map.mpr ⟨y, ?_, rfl⟩⟩)
    exact Hub.mem_subscribersOf.mpr hsub
  · refine iff_of_false ?_ hown
    exact not_or.mpr ⟨not_told_of_withoutVideo rfl, not_or.mpr ⟨not_told_of_withoutVideo rfl,
      not_told_of_aside hpost⟩⟩

theorem aside_of_untouched {op : HubOp} (ht : op.touched = none) (hop : op.withoutVideo = true) :
    op.Aside x :=
  ⟨own_of_untouched ht, hop⟩

theorem aside_of_own {op : HubOp} (ht : op.touched = some x) (hop : op.withoutVideo = true) :
    op.Aside x :=
  ⟨own_of_some ht, hop⟩

theorem aside_broadcastUserList (ch : ChannelID) :
    (broadcastUserList ch).All (HubOp.Aside x) :=
  all_then (aside_of_untouched rfl rfl) fun _ => all_then (aside_of_untouched rfl rfl) fun _ =>
    all_perform (aside_of_untouched rfl rfl)

theorem aside_announceIdle (ch : ChannelID) (f : Client) :
    (announceIdle ch f).All (HubOp.Aside x) :=
  all_then (aside_of_untouched rfl rfl) fun _ => all_then (aside_of_untouched rfl rfl) fun _ =>
    all_perform (aside_of_untouched rfl rfl)

/-- The entered channel may show a video, but no video ends with the move. -/
theorem aside_enterChannel (new : ChannelID) : (enterChannel x new).All (HubOp.Aside x) :=
  all_then (aside_of_own rfl rfl) fun _ => all_then (aside_of_own rfl rfl) fun _ =>
    all_bind (aside_broadcastUserList new) fun _ => all_then (aside_of_untouched rfl rfl) fun _ =>
    all_then (aside_of_untouched rfl rfl) fun _ => all_then (aside_of_untouched rfl rfl) fun _ =>
    all_then (aside_of_untouched rfl rfl) fun _ => all_ifSome fun _ =>
    all_perform (aside_of_untouched rfl rfl)

theorem announces_unregisterClient (hc : h.channelOf x = some c) :
    Announces x c (unregisterClient x) h := by
  have hanswer : ((HubOp.unregister x).run h).1 = some c := hc
  simp only [unregisterClient, perform_bind]
  refine announces_call (aside_of_own rfl rfl) ?_
  rw [hanswer]
  refine announces_call (aside_of_own rfl rfl) ?_
  refine announces_bind (aside_broadcastUserList c) (announces_endVideoOf ?_)
  exact all_when (all_then (aside_of_untouched rfl rfl) fun f => aside_announceIdle c f)

theorem announces_leaveChannel (f : Client) (new : ChannelID) :
    Announces x c (leaveChannel x f c >>= fun _ => enterChannel x new) h := by
  simp only [leaveChannel, perform_bind, call_bind, bind_assoc]
  refine announces_call (aside_of_own rfl rfl) ?_
  refine announces_bind (aside_broadcastUserList c) (announces_bind ?_ ?_)
  · exact all_when (aside_announceIdle c f)
  · exact announces_endVideoOf (aside_enterChannel new)

/-- A switch keeps the client on its channel, or announces the end of its video there. -/
theorem announces_switchChannel (new : ChannelID) (password : String)
    (hc : h.channelOf x = some c) :
    ((after (switchChannel x new password) h).heap x).currentChannelID =
        (h.heap x).currentChannelID ∨
      Announces x c (switchChannel x new password) h := by
  have hold : ((HubOp.lookupSwitch x new).run h).1.2 = some c := hc
  simp only [switchChannel, perform_bind, after_call]
  cases htarget : ((HubOp.lookupSwitch x new).run h).1.1 with
  | none =>
    rw [show ((HubOp.lookupSwitch x new).run h).1 = (none, some c) from Prod.ext htarget hold]
    exact Or.inl rfl
  | some definition =>
    rw [show ((HubOp.lookupSwitch x new).run h).1 = (some definition, some c) from
      Prod.ext htarget hold]
    dsimp only
    simp only [after_call]
    -- already there, refused for the password, or switched
    split_ifs with hsame hbad
    · exact Or.inl rfl
    · exact Or.inl rfl
    · refine Or.inr (announces_call (aside_of_untouched rfl rfl) ?_)
      rw [show ((HubOp.lookupSwitch x new).run h).1 = (some definition, some c) from
        Prod.ext htarget hold]
      refine announces_call (aside_of_untouched rfl rfl) ?_
      rw [if_neg hsame, if_neg hbad]
      exact announces_leaveChannel _ new

/-- So does the creation of a channel, which switches its client there. -/
theorem announces_createSignal (p : Decoded CreateChannelPayload) (hc : h.channelOf x = some c) :
    ((after (createSignal x p) h).heap x).currentChannelID = (h.heap x).currentChannelID ∨
      Announces x c (createSignal x p) h := by
  rw [createSignal, when]
  split_ifs
  swap
  · exact Or.inl rfl
  simp only [perform_bind, after_call]
  have hhas : h.HasChannel (h.heap x).currentChannelID := by
    unfold channelOf at hc
    split_ifs at hc with hsome
    exact hsome
  set created := ((HubOp.createChannel p.value).run h).2
  set told := ((HubOp.broadcastAll (.channelList created.getChannelList)).run created).2
  -- creating a channel and listing it move nobody
  have hstill : told.channelOf x = some c := by
    rw [channelOf_eq hc]
    exact if_pos (HubOp.hasChannel_run (.createChannel p.value) hhas)
  rcases announces_switchChannel ((HubOp.createChannel p.value).run h).1 p.value.password hstill
    with hsame | hann
  · exact Or.inl hsame
  · refine Or.inr (announces_call (aside_of_untouched rfl rfl) ?_)
    refine announces_call (aside_of_untouched rfl rfl) ?_
    exact announces_call (aside_of_untouched rfl rfl) hann

/-- Whoever is not subscribed stays so while nobody subscribes it. -/
theorem not_subscribed_after {p : HubProg α} (hp : p.All fun op => op ≠ .addSubscriber c x)
    (hx : ¬ h.Subscribed c x) : ¬ (after p h).Subscribed c x := by
  apply after_of_all (I := fun h => ¬ h.Subscribed c x) _ hp hx
  intro op h hop hx hs
  exact hx ((subscribed_run hs).resolve_right hop)

theorem adds_nobody {op : HubOp} (hop : op.touched = none) : op ≠ .addSubscriber c x := by
  rintro rfl
  cases hop

theorem adds_nobody_background {p : HubProg α} (hp : Background p) :
    p.All fun op => op ≠ .addSubscriber c x :=
  hp.mono fun _ hop => adds_nobody (touched_of_background hop)

theorem enterChannel_adds {new : ChannelID} (hne : c ≠ new) :
    (enterChannel x new).All fun op => op ≠ .addSubscriber c x := by
  refine all_then ?_ fun _ => all_then ?_ fun _ => all_bind ?_ fun _ => ?_
  · rintro ⟨⟩
  · exact fun heq => hne (HubOp.addSubscriber.inj heq).1.symm
  · exact adds_nobody_background (background_broadcastUserList new)
  · exact (untouched_showChannel x new).mono fun _ => adds_nobody

theorem leaveChannel_adds (f : Client) (ch : ChannelID) :
    (leaveChannel x f ch).All fun op => op ≠ .addSubscriber c x := by
  refine all_then (by rintro ⟨⟩) fun _ => all_bind ?_ fun _ => all_bind (all_when ?_) fun _ => ?_
  · exact adds_nobody_background (background_broadcastUserList ch)
  · exact (untouched_announceIdle ch f).mono fun _ => adds_nobody
  · exact adds_nobody_background (background_endVideoOf ch x)

/-- A switch keeps the client on its channel, or takes it off it. -/
theorem left_switchChannel (new : ChannelID) (password : String)
    (hc : (h.heap x).currentChannelID = c) :
    ((after (switchChannel x new password) h).heap x).currentChannelID = c ∨
      ¬ (after (switchChannel x new password) h).Subscribed c x := by
  simp only [switchChannel, perform_bind, after_call]
  cases htarget : ((HubOp.lookupSwitch x new).run h).1.1 with
  | none =>
    rw [show ((HubOp.lookupSwitch x new).run h).1 = (none, h.channelOf x) from
      Prod.ext htarget rfl]
    exact Or.inl hc
  | some definition =>
    rw [show ((HubOp.lookupSwitch x new).run h).1 = (some definition, h.channelOf x) from
      Prod.ext htarget rfl]
    dsimp only
    simp only [after_call]
    split_ifs with hsame hbad
    · exact Or.inl hc
    · exact Or.inl hc
    · refine Or.inr ?_
      have hne : c ≠ new := fun heq => hsame (hc.trans heq)
      rw [after_bind]
      refine not_subscribed_after (enterChannel_adds hne) ?_
      cases hof : h.channelOf x with
      | none =>
        show ¬ h.Subscribed c x
        intro hs
        rw [channelOf_some hc hs.hasChannel] at hof
        cases hof
      | some ch =>
        obtain rfl : ch = c := (channelOf_eq hof).trans hc
        simp only [ifSome, leaveChannel, perform_bind, after_call]
        have hrest := leaveChannel_adds (x := x) (c := ch) (h.heap x) ch
        exact not_subscribed_after (hrest.2 _) (not_subscribed_removeSubscriber ch x _)

theorem left_createSignal (p : Decoded CreateChannelPayload)
    (hc : (h.heap x).currentChannelID = c) :
    ((after (createSignal x p) h).heap x).currentChannelID = c ∨
      ¬ (after (createSignal x p) h).Subscribed c x := by
  rw [createSignal, when]
  split_ifs
  · simp only [perform_bind, after_call]
    exact left_switchChannel _ _ hc
  · exact Or.inl hc

theorem left_unregisterClient (hc : (h.heap x).currentChannelID = c) :
    ¬ (after (unregisterClient x) h).Subscribed c x := by
  simp only [unregisterClient, perform_bind, after_call]
  cases hof : h.channelOf x with
  | none =>
    rw [show ((HubOp.unregister x).run h).1 = none from hof]
    show ¬ h.Subscribed c x
    intro hs
    rw [channelOf_some hc hs.hasChannel] at hof
    cases hof
  | some ch =>
    obtain rfl : ch = c := (channelOf_eq hof).trans hc
    rw [show ((HubOp.unregister x).run h).1 = some ch from hof]
    rw [ifSome, after_call]
    refine not_subscribed_after ?_ (not_subscribed_removeSubscriber ch x _)
    refine all_bind ?_ fun _ => all_bind ?_ fun _ => all_when (all_then (by rintro ⟨⟩) fun f => ?_)
    · exact adds_nobody_background (background_broadcastUserList ch)
    · exact adds_nobody_background (background_endVideoOf ch x)
    · exact (untouched_announceIdle ch f).mono fun _ => adds_nobody

/-- `video_call_end` is announced to all subscribers if and only if the slot is the client's. -/
theorem told_videoEndSignal (hc : h.channelOf x = some c) (hy : h.Subscribed c y) :
    ToldOfEnd c (h.heap x).id y (sent (videoEndSignal x) h) ↔ h.Shows c (h.heap x).id := by
  have hcur := channelOf_eq hc
  rw [shows_iff rfl]
  simp only [videoEndSignal, perform_bind, sent_call]
  rw [toldOfEnd_append, toldOfEnd_append]
  have hid : (((HubOp.endVideo x).run h).2.heap x).id = (h.heap x).id := HubOp.id_run ..
  have hvideo : ((HubOp.endVideo x).run h).1 = (some c, h.activeVideoByChannel c) := by
    rw [hcur, ← hcur]
    exact Prod.ext hc (congrArg h.activeVideoByChannel hcur.symm)
  rw [hvideo]
  show _ ∨ _ ∨ ToldOfEnd c (h.heap x).id y (sent (when ((h.activeVideoByChannel c).any fun v =>
    v.senderID == (((HubOp.endVideo x).run h).2.heap x).id) _) _) ↔ _
  rw [hid, when]
  -- the call that frees the slot sends nothing by itself
  have hfirst : ¬ ToldOfEnd c (h.heap x).id y ((HubOp.endVideo x).sends h) := by
    rintro ⟨p, now, _, _, hd⟩
    cases hd
  split_ifs with hown
  · refine iff_of_true (Or.inr (Or.inr ?_)) hown
    refine ⟨_, _, rfl, hid, List.mem_append_left _ (List.mem_map.mpr ⟨y, ?_, rfl⟩)⟩
    rw [Hub.mem_subscribersOf, Hub.Subscribed]
    show ∃ chan, ((HubOp.endVideo x).run h).2.channels.lookup c = some chan ∧ _
    rw [HubOp.channels_run rfl rfl]
    exact hy
  · refine iff_of_false ?_ hown
    rintro (hd | hd | ⟨p, now, _, _, hd⟩)
    · exact hfirst hd
    · exact not_told_of_withoutVideo rfl hd
    · cases hd

end Announces

section Ends

variable {s t : SerialHub (ClientRef → Bool)} {e : SerialEvent} {x y : ClientRef}

/-- A client ends its video, disconnects or switches away. -/
theorem EndsShow.request (he : EndsShow s e x t) : ∃ r, e = .serve r ∧ r.thread = .client x ∧
    ((∃ choices, r = .signal x .videoCallEnd choices) ∨ r = .disconnect x ∨ (r.switches = true ∧
      (t.hub.heap x).currentChannelID ≠ (s.hub.heap x).currentChannelID)) := by
  obtain ⟨hstep, hshown, hended⟩ := he
  -- the flag that the step takes back is the one of `x`
  have hother : ∀ {z : ClientRef}, t.history = Function.update s.history z false → z = x := by
    intro z hz
    by_contra hne
    rw [hz, Function.update_of_ne (fun h => hne h.symm), hshown] at hended
    cases hended
  have hsame : t.history ≠ s.history := by
    intro heq
    rw [heq, hshown] at hended
    cases hended
  cases e with
  | timerFires ch timer =>
    obtain ⟨h', _, rfl⟩ := Option.map_eq_some_iff.mp hstep
    exact absurd rfl hsame
  | tick d =>
    obtain rfl := Option.some.inj hstep
    exact absurd rfl hsame
  | serve r =>
    obtain ⟨_, _, _, hhist⟩ := serialStep_serve hstep
    refine ⟨r, rfl, ?_⟩
    have hmoved : ∀ {z : ClientRef}, (t.history = if (t.hub.heap z).currentChannelID =
        (s.hub.heap z).currentChannelID then s.history else Function.update s.history z false) →
        z = x ∧ (t.hub.heap x).currentChannelID ≠ (s.hub.heap x).currentChannelID := by
      intro z hz
      split_ifs at hz with hcur
      · exact absurd hz hsame
      · obtain rfl := hother hz
        exact ⟨rfl, hcur⟩
    cases r with
    | disconnect z =>
      obtain rfl := hother hhist
      exact ⟨rfl, Or.inr (Or.inl rfl)⟩
    | signal z msg choices =>
      cases msg with
      | videoCallEnd =>
        obtain rfl := hother hhist
        exact ⟨rfl, Or.inl ⟨choices, rfl⟩⟩
      | joinChannel p =>
        obtain ⟨rfl, hcur⟩ := hmoved hhist
        exact ⟨rfl, Or.inr (Or.inr ⟨rfl, hcur⟩)⟩
      | createChannel p =>
        obtain ⟨rfl, hcur⟩ := hmoved hhist
        exact ⟨rfl, Or.inr (Or.inr ⟨rfl, hcur⟩)⟩
      | videoCallStart p =>
        have hhist' : t.history = Function.update s.history z true := hhist
        by_cases hz : x = z
        · rw [hhist', hz, Function.update_self] at hended
          cases hended
        · rw [hhist', Function.update_of_ne hz, hshown] at hended
          cases hended
      | _ => exact absurd hhist hsame
    | _ => exact absurd hhist hsame

/-- What the end of a video of `x` on channel `c` comes to. -/
inductive EndOutcome (s t : SerialHub (ClientRef → Bool)) (e : SerialEvent) (x : ClientRef)
    (c : ChannelID) : Prop
  | stays (hstays : e.departs = false)
      (hsub : ∀ y, t.hub.Subscribed c y ↔ s.hub.Subscribed c y)
      (htold : ∀ y, s.hub.Subscribed c y → (ToldOfEnd c (s.hub.heap x).id y
        (t.hub.outbox.drop s.hub.outbox.length) ↔ s.hub.Shows c (s.hub.heap x).id))
  | departs (hdeparts : e.departs = true) (hself : ¬ t.hub.Subscribed c x)
      (hsub : ∀ y, y ≠ x → (t.hub.Subscribed c y ↔ s.hub.Subscribed c y))
      (htold : ∀ y, y ≠ x → s.hub.Subscribed c y → (ToldOfEnd c (s.hub.heap x).id y
        (t.hub.outbox.drop s.hub.outbox.length) ↔ s.hub.Shows c (s.hub.heap x).id))

/-- A client that leaves its channel is no longer subscribed there, and those who remain are told
of the end of its video if the slot holds it. -/
theorem departure {r : Request} {h : Hub} {c : ChannelID} (hthread : r.thread = .client x)
    (hr : r = .disconnect x ∨ (r.switches = true ∧
      ((Hub.after r.prog h).heap x).currentChannelID ≠ (h.heap x).currentChannelID))
    (hcur : (h.heap x).currentChannelID = c) :
    ¬ (Hub.after r.prog h).Subscribed c x ∧ (h.HasChannel c → Announces x c r.prog h) := by
  rcases hr with rfl | ⟨hswitches, hmoved⟩
  · exact ⟨left_unregisterClient hcur, fun hc =>
      announces_unregisterClient (Hub.channelOf_some hcur hc)⟩
  · cases r with
    | signal z msg choices =>
      obtain rfl := Thread.client.inj hthread
      cases msg with
      | joinChannel p =>
        show ¬ (Hub.after (Prog.when p.ok _) h).Subscribed c z ∧
          (h.HasChannel c → Announces _ c (Prog.when p.ok _) h)
        replace hmoved : ((Hub.after (Prog.when p.ok (Hub.switchChannel z p.value.channelID
            p.value.password)) h).heap z).currentChannelID ≠ _ := hmoved
        unfold Prog.when at hmoved ⊢
        split_ifs at hmoved ⊢
        · exact ⟨(left_switchChannel _ _ hcur).resolve_left (hcur ▸ hmoved), fun hc =>
            (announces_switchChannel _ _ (Hub.channelOf_some hcur hc)).resolve_left hmoved⟩
        · -- a payload that does not decode is dropped, so nobody has moved
          exact absurd rfl hmoved
      | createChannel p =>
        exact ⟨(left_createSignal p hcur).resolve_left (hcur ▸ hmoved), fun hc =>
          (announces_createSignal p (Hub.channelOf_some hcur hc)).resolve_left hmoved⟩
      | _ => cases hswitches
    | _ => cases hswitches

theorem EndsShow.outcome (he : EndsShow s e x t) :
    EndOutcome s t e x (s.hub.heap x).currentChannelID := by
  obtain ⟨r, rfl, hthread, hr⟩ := he.request
  obtain ⟨_, hafter, _, _⟩ := serialStep_serve he.step
  have hsent : t.hub.outbox.drop s.hub.outbox.length = Hub.sent r.prog s.hub := by
    rw [hafter, Hub.outbox_after, List.drop_left]
  rcases hr with ⟨choices, rfl⟩ | hr
  · refine .stays rfl (fun y => ?_) fun y hy => ?_
    · -- ending the video takes nobody off the channel
      rw [hafter]
      refine (Hub.elsewhere_after ((Hub.background_videoEndSignal x).mono fun op hop => ?_)
        s.hub).subscribed _
      rw [touched_of_background hop]
      exact (Option.some_ne_none y).symm
    · rw [hsent]
      exact told_videoEndSignal (Hub.channelOf_some rfl hy.hasChannel) hy
  · have hdeparts : r.departs = true := by
      rcases hr with rfl | ⟨hswitches, _⟩
      · rfl
      · exact departs_of_switches hswitches
    have hleft := departure hthread (hafter ▸ hr) rfl
    refine .departs hdeparts (hafter ▸ hleft.1) (fun y hy => ?_) fun y hy hsuby => ?_
    · rw [hafter]
      refine (Hub.elsewhere_after ((own_prog r).mono fun op hop => hop y ?_) s.hub).subscribed _
      rw [hthread]
      exact fun heq => hy (Thread.client.inj heq).symm
    · rw [hsent]
      exact hleft.2 hsuby.hasChannel y hy hsuby

/-- The end of a video is announced if and only if the slot is still its sender's. -/
theorem endAnnounced_iff : EndAnnounced s e ↔ EndsOwnSlot s e := by
  constructor
  · intro hann x t he
    have hx := hann x t he
    -- if somebody remains, the announcement that reaches them shows whose the slot was
    by_cases halone : ∀ y, s.hub.Subscribed (s.hub.heap x).currentChannelID y →
        y = x ∧ e.departs = true
    · exact Or.inr halone
    · obtain ⟨y, hy⟩ := not_forall.mp halone
      obtain ⟨hsub, hothers⟩ := Classical.not_imp.mp hy
      refine Or.inl ?_
      cases he.outcome with
      | stays _ hsame htold => exact (htold y hsub).mp (hx y ((hsame y).mpr hsub))
      | departs hdeparts _ hsame htold =>
        have hne : y ≠ x := fun heq => hothers ⟨heq, hdeparts⟩
        exact (htold y hne hsub).mp (hx y ((hsame y hne).mpr hsub))
  · intro hown x t he y hy
    cases he.outcome with
    | stays hstays hsame htold =>
      have hsub := (hsame y).mp hy
      rcases hown x t he with hshows | halone
      · exact (htold y hsub).mpr hshows
      · have hdeparts := (halone y hsub).2
        rw [hstays] at hdeparts
        cases hdeparts
    | departs _ hself hsame htold =>
      have hne : y ≠ x := fun heq => hself (heq ▸ hy)
      have hsub := (hsame y hne).mp hy
      rcases hown x t he with hshows | halone
      · exact (htold y hne hsub).mpr hshows
      · exact absurd (halone y hsub).1 hne

theorem not_announced (he : EndsShow s e x t)
    (hslot : (s.hub.activeVideoByChannel (s.hub.heap x).currentChannelID).any
      (fun v => v.senderID == (s.hub.heap x).id) = false)
    (hy : y ∈ s.hub.subscribersOf (s.hub.heap x).currentChannelID) (hne : y ≠ x) :
    ¬ EndAnnounced s e := by
  intro hann
  rcases endAnnounced_iff.mp hann x t he with hshows | halone
  · rw [shows_iff rfl, hslot] at hshows
    cases hshows
  · exact hne (halone y (Hub.mem_subscribersOf.mp hy)).1

end Ends

/-- Along any run of handlers one at a time, the end of every video is announced to those who
remain on its channel if and only if each sender still has the slot when its video ends, or leaves
the channel to nobody. -/
theorem video_end_announced_iff (cfg : Config) (recorder : Option AudioRecorder) (roipRelay : Bool)
    (heap : Clients) (now : ℤ) (es : List SerialEvent) :
    Guarded (serialStep noteVideo) EndAnnounced
        (SerialHub.init (newHub cfg recorder roipRelay heap now) fun _ => false) es ↔
      Guarded (serialStep noteVideo) EndsOwnSlot
        (SerialHub.init (newHub cfg recorder roipRelay heap now) fun _ => false) es :=
  guarded_iff es (I := fun _ => True) (fun _ _ _ _ _ _ => trivial)
    (fun _ _ _ => endAnnounced_iff) trivial

/-- Units 0 and 1 are in a video call on channel 1: both have sent `video_call_start`. -/
def videoCall : List SerialEvent :=
  [.serve (.connect 0 0), .serve (.connect 1 0),
    .serve (.signal 0 (.videoCallStart ⟨{ channelID := 1 }, true⟩) {}),
    .serve (.signal 1 (.videoCallStart ⟨{ channelID := 1 }, true⟩) {})]

/-- Unit 1 is not told when unit 0 ends its video, goes to channel 2 or disconnects. -/
theorem video_end_announced_fails :
    ∃ s, Run (serialStep noteVideo)
        (SerialHub.init (newHub defaultConfig none false sampleClients 0) fun _ => false)
        videoCall s ∧
      ¬ EndAnnounced s (.serve (.signal 0 .videoCallEnd {})) ∧
      ¬ EndAnnounced s (.serve (.signal 0 (.joinChannel ⟨{ channelID := 2 }, true⟩) {})) ∧
      ¬ EndAnnounced s (.serve (.disconnect 0)) := by
  refine ⟨_, run_get _ _ _ (by decide +kernel), ?_, ?_, ?_⟩ <;>
  exact not_announced (x := 0) (y := 1)
    ⟨(Option.some_get (by decide +kernel)).symm, by decide +kernel, by decide +kernel⟩
    (by decide +kernel) (by decide +kernel) (by decide)

end TwoWayRadio

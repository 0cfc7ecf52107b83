import TwoWayRadio.HubChannels

/-! What each call of the hub does to the floors, in terms of the holders alone. -/
namespace TwoWayRadio

namespace Hub

theorem holder_onChannel {α : Type} (ch ch' : ChannelID) (absent : α) (f : Channel → α × Channel)
    (h : Hub) : (h.onChannel ch absent f).2.holder ch' =
      if ch' = ch then (h.channels.lookup ch).bind fun c => (f c).2.activeSpeaker
      else h.holder ch' := by
  rw [holder, lookup_onChannel]
  split_ifs
  · cases h.channels.lookup ch <;> rfl
  · rfl

theorem busyAgrees_onChannel {α : Type} {ch : ChannelID} {absent : α} {f : Channel → α × Channel}
    {h : Hub} (hb : h.BusyAgrees) (hf : ∀ c, c.BusyAgrees → (f c).2.BusyAgrees) :
    (h.onChannel ch absent f).2.BusyAgrees := by
  intro ch' c hc
  rw [lookup_onChannel] at hc
  split_ifs at hc with heq
  · obtain ⟨c', hc', rfl⟩ := Option.map_eq_some_iff.mp hc
    exact hf c' (hb ch c' hc')
  · exact hb ch' c hc

theorem holder_of_lookup {ch : ChannelID} {c : Channel} {h : Hub}
    (hc : h.channels.lookup ch = some c) : h.holder ch = c.activeSpeaker := by
  rw [holder, hc]
  rfl

end Hub

namespace HubOp

variable {h : Hub} {ch : ChannelID} {x : ClientRef}

/-- A call leaves the floors of all channels but its own. -/
theorem holder_run_of_ne {op : HubOp} (ht : op.target ≠ some ch) :
    (op.run h).2.holder ch = h.holder ch := by
  have hsection : ∀ {α : Type} {ch' : ChannelID} {absent : α} {f : Channel → α × Channel},
      ch ≠ ch' → (h.onChannel ch' absent f).2.holder ch = h.holder ch := by
    intro α ch' absent f hne
    rw [Hub.holder_onChannel, if_neg hne]
  by_cases hnone : op.target = none
  · by_cases hcr : op.createsChannel = false
    · rw [Hub.holder, channels_run hnone hcr, Hub.holder]
    · cases op with
      | createChannel p =>
        rw [Hub.holder, lookup_createChannel]
        split_ifs with heq
        · rw [Hub.holder, heq, h.newChannelID_fresh]
          rfl
        · rfl
      | _ => exact absurd rfl hcr
  · cases op with
    | addSubscriber ch' client => exact hsection fun heq => ht (by rw [heq]; rfl)
    | removeSubscriber ch' client => exact hsection fun heq => ht (by rw [heq]; rfl)
    | requestFloor ch' client => exact hsection fun heq => ht (by rw [heq]; rfl)
    | releaseFloor ch' client => exact hsection fun heq => ht (by rw [heq]; rfl)
    | handleTOT ch' timer => exact hsection fun heq => ht (by rw [heq]; rfl)
    | _ => exact absurd rfl hnone

theorem holder_run_addSubscriber (ch' : ChannelID) :
    ((addSubscriber ch x).run h).2.holder ch' = h.holder ch' := by
  rw [run, Hub.holder_onChannel]
  split_ifs with heq
  · rw [heq]
    rfl
  · rfl

/-- The two calls that end the hold of their caller, and only that. -/
theorem releaseFloor_run (h : Hub) (ch : ChannelID) (x : ClientRef) :
    (h.holder ch = some x ∧ ((releaseFloor ch x).run h).1 = true ∧
      ((releaseFloor ch x).run h).2.holder ch = none) ∨
    (h.holder ch ≠ some x ∧ ((releaseFloor ch x).run h).1 = false ∧
      ((releaseFloor ch x).run h).2.holder ch = h.holder ch) := by
  simp only [run]
  rw [Hub.holder_onChannel, if_pos rfl]
  cases hc : h.channels.lookup ch with
  | none =>
    have hnone : h.holder ch = none := by rw [Hub.holder, hc]; rfl
    rw [hnone]
    refine Or.inr ⟨(Option.some_ne_none x).symm, ?_, rfl⟩
    rw [Hub.onChannel, hc]
  | some c =>
    rw [Hub.holder_of_lookup hc, Hub.onChannel_fst hc]
    rcases c.releaseFloor_cases x with ⟨hspk, hr, hc'⟩ | ⟨hspk, heq⟩
    · refine Or.inl ⟨hspk, hr, ?_⟩
      simp [hc']
    · refine Or.inr ⟨hspk, ?_, ?_⟩ <;> simp [heq]

theorem removeSubscriber_run (h : Hub) (ch : ChannelID) (x : ClientRef) :
    (h.holder ch = some x ∧ ((removeSubscriber ch x).run h).1 = true ∧
      ((removeSubscriber ch x).run h).2.holder ch = none) ∨
    (h.holder ch ≠ some x ∧ ((removeSubscriber ch x).run h).1 = false ∧
      ((removeSubscriber ch x).run h).2.holder ch = h.holder ch) := by
  simp only [run]
  rw [Hub.holder_onChannel, if_pos rfl]
  cases hc : h.channels.lookup ch with
  | none =>
    have hnone : h.holder ch = none := by rw [Hub.holder, hc]; rfl
    rw [hnone]
    refine Or.inr ⟨(Option.some_ne_none x).symm, ?_, rfl⟩
    rw [Hub.onChannel, hc]
  | some c =>
    rw [Hub.holder_of_lookup hc, Hub.onChannel_fst hc, Channel.removeSubscriber_eq]
    rcases Channel.releaseFloor_cases x { c with subscribers := c.subscribers.erase x } with
      ⟨hspk, hr, hc'⟩ | ⟨hspk, heq⟩
    · refine Or.inl ⟨hspk, hr, ?_⟩
      show (Channel.removeSubscriber x c).2.activeSpeaker = none
      rw [Channel.removeSubscriber_eq, hc']
    · refine Or.inr ⟨hspk, by rw [heq], ?_⟩
      show (Channel.removeSubscriber x c).2.activeSpeaker = c.activeSpeaker
      rw [Channel.removeSubscriber_eq, heq]

/-- The outcomes of a request, with the holder before and after. -/
inductive Requested (h : Hub) (x : ClientRef) :
    Option ClientRef → FloorReply → Option ClientRef → Prop
  | absent : Requested h x none ⟨false, "", "", none⟩ none
  | free : Requested h x none ⟨true, "", "", none⟩ (some x)
  | held : Requested h x (some x) ⟨true, "", "", none⟩ (some x)
  | preempts (y : ClientRef) (hne : y ≠ x)
      (hp : getPriority (h.heap y) < getPriority (h.heap x)) :
      Requested h x (some y) ⟨true, "preempted", (h.heap y).callsign, some y⟩ (some x)
  | denied (y : ClientRef) (hne : y ≠ x)
      (hp : getPriority (h.heap x) ≤ getPriority (h.heap y)) :
      Requested h x (some y) ⟨false, "channel_busy", (h.heap y).callsign, none⟩ (some y)

theorem requestFloor_run (ch : ChannelID) (x : ClientRef) (hb : h.BusyAgrees) :
    Requested h x (h.holder ch) ((requestFloor ch x).run h).1
      (((requestFloor ch x).run h).2.holder ch) := by
  simp only [run]
  rw [Hub.holder_onChannel, if_pos rfl]
  cases hc : h.channels.lookup ch with
  | none =>
    have hnone : h.holder ch = none := by rw [Hub.holder, hc]; rfl
    rw [hnone, Hub.onChannel, hc]
    exact .absent
  | some c =>
    rw [Hub.holder_of_lookup hc, Hub.onChannel_fst hc]
    show Requested h x c.activeSpeaker (c.requestFloor h.heap x).1
      (c.requestFloor h.heap x).2.activeSpeaker
    have hout := Channel.requestFloor_outcome h.heap x (hb ch c hc)
    generalize (c.requestFloor h.heap x).1 = reply at hout
    generalize (c.requestFloor h.heap x).2 = c' at hout
    cases hout with
    | fresh hspk =>
      rw [hspk]
      simpa using Requested.free
    | held hspk =>
      rw [hspk]
      exact .held
    | preempts y hspk hne hp =>
      rw [hspk]
      simpa using Requested.preempts y hne hp
    | denied y hspk hne hp =>
      rw [hspk]
      exact .denied y hne hp

theorem handleTOT_run (h : Hub) (ch : ChannelID) (timer : ℕ) :
    (((handleTOT ch timer).run h).1 = none ∧
      ((handleTOT ch timer).run h).2.holder ch = h.holder ch) ∨
    ∃ y, ((handleTOT ch timer).run h).1 = some y ∧ h.holder ch = some y ∧
      ((handleTOT ch timer).run h).2.holder ch = none := by
  simp only [run]
  rw [Hub.holder_onChannel, if_pos rfl]
  cases hc : h.channels.lookup ch with
  | none =>
    refine Or.inl ⟨?_, ?_⟩
    · rw [Hub.onChannel, hc]
    · rw [Hub.holder, hc]
      rfl
  | some c =>
    rw [Hub.holder_of_lookup hc, Hub.onChannel_fst hc]
    show (((c.runTimer timer).getD (none, c)).1 = none ∧
        ((c.runTimer timer).getD (none, c)).2.activeSpeaker = c.activeSpeaker) ∨
      ∃ y, ((c.runTimer timer).getD (none, c)).1 = some y ∧ c.activeSpeaker = some y ∧
        ((c.runTimer timer).getD (none, c)).2.activeSpeaker = none
    rcases c.runTimer_getD timer with heq | ⟨hr, hspk, _, _⟩
    · rw [heq]
      exact Or.inl ⟨rfl, rfl⟩
    · rw [hr, hspk]
      cases c.activeSpeaker with
      | none => exact Or.inl ⟨rfl, rfl⟩
      | some y => exact Or.inr ⟨y, rfl, rfl, rfl⟩

/-- While the busy flags agree with the holders, the holder is who passes for it. -/
theorem isFloorHolder_iff (hb : h.BusyAgrees) :
    (h.readChannel ch false fun c => c.isFloorHolder x) = true ↔ h.holder ch = some x := by
  rw [Hub.readChannel]
  cases hc : h.channels.lookup ch with
  | none =>
    rw [Hub.holder, hc]
    exact iff_of_false Bool.false_ne_true (Option.some_ne_none x).symm
  | some c =>
    rw [Hub.holder_of_lookup hc]
    simp only [Channel.isFloorHolder, Bool.and_eq_true, beq_iff_eq]
    refine and_iff_right_of_imp fun hspk => (hb ch c hc).mpr ?_
    rw [hspk]
    exact Option.some_ne_none x

theorem isFloorHolder_run (hr : ((isFloorHolder ch x).run h).1 = true) : h.holder ch = some x := by
  simp only [run, Hub.readChannel] at hr
  split at hr
  · cases hr
  · rename_i c hc
    rw [Hub.holder_of_lookup hc]
    simp only [Channel.isFloorHolder, Bool.and_eq_true, beq_iff_eq] at hr
    exact hr.2

theorem getState_run (hb : h.BusyAgrees) :
    ((getState ch).run h).1.1 = (h.holder ch).isSome := by
  simp only [run, Hub.readChannel]
  split
  · rename_i hc
    rw [Hub.holder, hc]
    rfl
  · rename_i c hc
    rw [Hub.holder_of_lookup hc]
    have hagree := hb ch c hc
    unfold Channel.getState
    split
    · rename_i y _ hspk
      rw [hspk]
      rfl
    · -- not busy with a speaker: by `BusyAgrees` there is no speaker
      rename_i hno
      cases hspk : c.activeSpeaker with
      | none => rfl
      | some y =>
        refine absurd hspk (hno y (hagree.mpr ?_))
        rw [hspk]
        exact Option.some_ne_none y

theorem busyAgrees_run (hb : h.BusyAgrees) (op : HubOp) : (op.run h).2.BusyAgrees := by
  -- a call is on no channel, creates one, or is one of the five on a channel
  by_cases hnone : op.target = none
  · by_cases hcr : op.createsChannel = false
    · intro ch c hc
      rw [channels_run hnone hcr] at hc
      exact hb ch c hc
    · cases op with
      | createChannel p =>
        intro ch c hc
        rw [lookup_createChannel] at hc
        split_ifs at hc with heq
        · obtain rfl := Option.some.inj hc
          simp [Channel.BusyAgrees, newChannel]
        · exact hb ch c hc
      | _ => exact absurd rfl hcr
  · cases op with
    | addSubscriber ch' client => exact Hub.busyAgrees_onChannel hb fun c hc => hc
    | removeSubscriber ch' client =>
      refine Hub.busyAgrees_onChannel hb fun c hc => ?_
      rw [Channel.removeSubscriber_eq]
      exact Channel.busyAgrees_releaseFloor client
        (c := { c with subscribers := c.subscribers.erase client }) hc
    | requestFloor ch' client =>
      exact Hub.busyAgrees_onChannel hb fun c hc => Channel.busyAgrees_requestFloor h.heap client hc
    | releaseFloor ch' client =>
      exact Hub.busyAgrees_onChannel hb fun c hc => Channel.busyAgrees_releaseFloor client hc
    | handleTOT ch' timer =>
      refine Hub.busyAgrees_onChannel hb fun c hc => ?_
      rcases c.runTimer_getD timer with heq | ⟨_, hspk, hbusy, _⟩
      · rw [heq]
        exact hc
      · simp [Channel.BusyAgrees, hspk, hbusy]
    | _ => exact absurd rfl hnone

end HubOp

end TwoWayRadio

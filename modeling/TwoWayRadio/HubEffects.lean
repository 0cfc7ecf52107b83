import TwoWayRadio.HubExec

/-! What a call can do to a client and to the channels: whom it tunes or subscribes, and which
message it keeps. -/
namespace TwoWayRadio

variable {x : ClientRef} {op : HubOp} {c ch : ChannelID} {h : Hub}

/-- Channels are neither removed nor defined anew. -/
theorem definitionOf_run (op : HubOp) {d : ChannelDef} (hd : h.definitionOf c = some d) :
    (op.run h).2.definitionOf c = some d := by
  obtain ⟨y, hy⟩ : ∃ y, op.touched ≠ some y := by
    cases ht : op.touched with
    | none => exact ⟨0, (Option.some_ne_none 0).symm⟩
    | some x => exact ⟨x + 1, fun heq => Nat.succ_ne_self x (Option.some.inj heq).symm⟩
  exact (elsewhere_run hy h).definition c d hd

/-- Only `AddSubscriber` subscribes a client. -/
theorem subscribed_run (hs : (op.run h).2.Subscribed c x) :
    h.Subscribed c x ∨ op = .addSubscriber c x := by
  cases hj : op.joins .listening x c with
  | false =>
    have hreach : Feed.listening.Reaches (op.run h).2 x c := hs
    exact Or.inl (HubOp.reaches_of_run hreach hj)
  | true =>
    cases op with
    | addSubscriber ch y =>
      obtain ⟨_, rfl, rfl⟩ := of_decide_eq_true hj
      exact Or.inr rfl
    | register y first => simp [HubOp.joins] at hj
    | _ => cases hj

theorem subscribed_addSubscriber (x : ClientRef) (hc : h.HasChannel c) :
    ((HubOp.addSubscriber c x).run h).2.Subscribed c x := by
  obtain ⟨chan, hchan⟩ := Hub.hasChannel_iff.mp hc
  refine ⟨chan.addSubscriber x, ?_, (AList.mem_insert _).mpr (Or.inl rfl)⟩
  rw [HubOp.run, Hub.lookup_onChannel, if_pos rfl, hchan]
  rfl

theorem not_subscribed_removeSubscriber (c : ChannelID) (x : ClientRef) (h : Hub) :
    ¬ ((HubOp.removeSubscriber c x).run h).2.Subscribed c x := by
  rintro ⟨chan, hchan, hmem⟩
  rw [HubOp.run, Hub.lookup_onChannel, if_pos rfl] at hchan
  obtain ⟨chan', _, rfl⟩ := Option.map_eq_some_iff.mp hchan
  rw [Channel.removeSubscriber_eq, Channel.releaseFloor_subscribers] at hmem
  exact (AList.mem_erase.mp hmem).1 rfl

/-- The client that a call tunes to a channel. -/
def HubOp.tunes : HubOp → Option ClientRef
  | register x _ | setCurrentChannel x _ => some x
  | _ => none

theorem current_run (hop : op.tunes ≠ some x) :
    ((op.run h).2.heap x).currentChannelID = (h.heap x).currentChannelID := by
  by_cases ht : op.touched = some x
  swap
  · exact (elsewhere_run ht h).current
  cases op with
  | register y first => exact absurd ht hop
  | setCurrentChannel y new => exact absurd ht hop
  | unregister y => rfl
  | addSubscriber ch y => rw [HubOp.run, Hub.onChannel_heap]
  | removeSubscriber ch y => rw [HubOp.run, Hub.onChannel_heap]
  | requestFloor ch y => rw [HubOp.run, Hub.onChannel_heap]
  | _ => cases ht

theorem mem_pushHistory {m m' : ChatMessagePayload Bytes}
    (hm : m' ∈ (h.pushHistory ch m).chatHistory c) :
    m' ∈ h.chatHistory c ∨ (c = ch ∧ m' = m) := by
  unfold Hub.pushHistory at hm
  dsimp only at hm
  by_cases hc : c = ch
  · rw [hc, Function.update_self] at hm
    have hmem : m' ∈ h.chatHistory ch ++ [m] := by
      unfold Hub.trimHistory at hm
      split_ifs at hm
      · exact List.mem_of_mem_drop hm
      · exact hm
    rcases List.mem_append.mp hmem with hold | hnew
    · exact Or.inl (hc ▸ hold)
    · exact Or.inr ⟨hc, List.mem_singleton.mp hnew⟩
  · rw [Function.update_of_ne hc] at hm
    exact Or.inl hm

theorem pushHistory_chatHistory {m : ChatMessagePayload Bytes}
    (hfew : ((h.pushHistory c m).chatHistory c).length < 30) :
    (h.pushHistory c m).chatHistory c = h.chatHistory c ++ [m] := by
  unfold Hub.pushHistory Hub.trimHistory at hfew ⊢
  simp only [Function.update_self] at hfew ⊢
  split_ifs at hfew ⊢ with hlong
  · rw [List.length_drop] at hfew
    omega
  · rfl

/-- The channel whose history a call appends to. -/
def HubOp.appends (h : Hub) : HubOp → Option ChannelID
  | appendChat y _ => some (h.heap y).currentChannelID
  | appendVoice ch _ => some ch
  | _ => none

theorem chatHistory_run (hop : op.appends h ≠ some c) :
    (op.run h).2.chatHistory c = h.chatHistory c := by
  have hchannel {α : Type} {ch : ChannelID} {absent : α} {f : Channel → α × Channel} :
      (h.onChannel ch absent f).2.chatHistory = h.chatHistory :=
    Hub.onChannel_part (fun _ _ => rfl) ..
  have hrecorder {α : Type} {absent : α} {f : AudioRecorder → α × AudioRecorder} :
      (h.onRecorder absent f).2.chatHistory = h.chatHistory :=
    Hub.onRecorder_part (fun _ _ => rfl) ..
  cases op with
  | appendChat y p => exact Function.update_of_ne (fun heq => hop (congrArg some heq.symm)) ..
  | appendVoice ch p => exact Function.update_of_ne (fun heq => hop (congrArg some heq.symm)) ..
  | register y first =>
    show (h.register y first).2.chatHistory c = _
    rw [Hub.register_eq]
  | endVideo y =>
    simp only [HubOp.run]
    split_ifs <;> rfl
  | addSubscriber ch y => exact congrFun hchannel c
  | removeSubscriber ch y => exact congrFun hchannel c
  | requestFloor ch y => exact congrFun hchannel c
  | releaseFloor ch y => exact congrFun hchannel c
  | handleTOT ch timer => exact congrFun hchannel c
  | onTransmissionStart ch y => exact congrFun hrecorder c
  | appendAudio ch payload => exact congrFun hrecorder c
  | onTransmissionEnd ch => exact congrFun hrecorder c
  | _ => rfl

/-- A history grows by the messages appended to it. -/
theorem mem_chatHistory_run {m : ChatMessagePayload Bytes}
    (hm : m ∈ (op.run h).2.chatHistory c) : m ∈ h.chatHistory c ∨
      (∃ y, op = .appendChat y m ∧ c = (h.heap y).currentChannelID) ∨ op = .appendVoice c m := by
  by_cases hop : op.appends h = some c
  swap
  · exact Or.inl (chatHistory_run hop ▸ hm)
  cases op with
  | appendChat y p =>
    rcases mem_pushHistory hm with hold | ⟨hc, rfl⟩
    · exact Or.inl hold
    · exact Or.inr (Or.inl ⟨y, rfl, hc⟩)
  | appendVoice ch p =>
    rcases mem_pushHistory hm with hold | ⟨rfl, rfl⟩
    · exact Or.inl hold
    · exact Or.inr (Or.inr rfl)
  | _ => cases hop

/-- A history that is full stays full. -/
theorem length_chatHistory_run (hfew : ((op.run h).2.chatHistory c).length < 30) :
    (h.chatHistory c).length < 30 := by
  by_cases hop : op.appends h = some c
  swap
  · rw [chatHistory_run hop] at hfew
    exact hfew
  have hpush : ∀ m, ((h.pushHistory c m).chatHistory c).length < 30 →
      (h.chatHistory c).length < 30 := by
    intro m hlt
    have heq := pushHistory_chatHistory hlt
    rw [heq, List.length_append] at hlt
    omega
  cases op with
  | appendChat y p =>
    obtain rfl := Option.some.inj hop
    exact hpush p hfew
  | appendVoice ch p =>
    obtain rfl := Option.some.inj hop
    exact hpush p hfew
  | _ => cases hop

end TwoWayRadio

import TwoWayRadio.AudioFanOut
import TwoWayRadio.ChatHandlers

/-! The chat list of a client that joins a channel while others are writing on it: subscription,
history and live messages reach it by calls that the writers' calls come between. -/
namespace TwoWayRadio
open Interleaving Transition

/-- What the stage of the switch of `J` to `c` says. -/
def SwitchStage.Holds (J : ClientRef) (c : ChannelID) (h : Hub) (g : CatchUp.State Thread) :
    SwitchStage → Prop
  | leaving => (h.heap J).currentChannelID ≠ c ∧ g.snapshot = none ∧ g.installed = false
  | moved => g.snapshot = none ∧ g.installed = false
  | listening => h.Subscribed c J ∧ g.snapshot = none ∧ g.installed = false
  | snapped hist => h.Subscribed c J ∧
    (∃ n, g.snapshot = some n ∧ hist = (h.chatHistory c).take n) ∧ g.installed = false
  | shown => h.Subscribed c J ∧ g.installed = true

/-- What the stage of the chat message of `y` on `c` says. -/
def ChatStage.Holds (c : ChannelID) (y : ClientRef) (h : Hub) (g : CatchUp.State Thread) :
    ChatStage → Prop
  | due m => m.channelID = c ∧
    ∃ k, g.pending (.client y) = some k ∧ (h.chatHistory c)[k]? = some m
  | _ => g.pending (.client y) = none

/-- Message `m` is the entry of the list with number `k`. -/
def IsEntry (hist : List (ChatMessagePayload Bytes)) (m : ChatMessagePayload Bytes)
    (k : ℕ) : Prop :=
  hist[k]? = some m

/-- The transcript is of what the hub has kept and sent since it was as `h₀`, and what the list in
the drawer of `J` holds, once it has been filled, is the copy. -/
structure Recorded (J : ClientRef) (c : ChannelID) (h₀ : Hub) (drawer : ChatDrawer) (h : Hub)
    (g : CatchUp.State Thread) : Prop where
  inv : CatchUp.Inv g
  entries : g.entries = (h.chatHistory c).length
  current : ∀ y, y ≠ J → (h.heap y).currentChannelID = (h₀.heap y).currentChannelID
  rest : ∀ i, (∀ y, y ≠ J → i ≠ .client y) → g.pending i = none
  list : ∃ sent, h.outbox = h₀.outbox ++ sent ∧ (g.installed = true →
    List.Forall₂ (IsEntry (h.chatHistory c))
      (drawer.shows (framesTo J sent)).chatMessagesList g.copy)

section Calls

variable {J y : ClientRef} {c : ChannelID} {h h' h₀ : Hub} {g g' : CatchUp.State Thread}
  {drawer : ChatDrawer} {op : HubOp} {m : ChatMessagePayload Bytes}
  {hist hist' : List (ChatMessagePayload Bytes)}

theorem IsEntry.grows {k : ℕ} (hm : IsEntry hist m k) (hgrow : hist <+: hist') :
    IsEntry hist' m k := by
  obtain ⟨more, rfl⟩ := hgrow
  unfold IsEntry at hm ⊢
  obtain ⟨hk, _⟩ := List.getElem?_eq_some_iff.mp hm
  rw [List.getElem?_append_left hk]
  exact hm

/-- Others may go on while `J` is at a stage of its switch. -/
theorem SwitchStage.Holds.elsewhere {st : SwitchStage} (hst : st.Holds J c h g)
    (he : Elsewhere J h h') (hgrow : h.chatHistory c <+: h'.chatHistory c)
    (hle : ∀ n ∈ g.snapshot, n ≤ (h.chatHistory c).length) (hsnap : g'.snapshot = g.snapshot)
    (hin : g'.installed = g.installed) : st.Holds J c h' g' := by
  cases st with
  | leaving =>
    obtain ⟨hcurrent, hnone, hout⟩ := hst
    exact ⟨he.current ▸ hcurrent, hsnap.trans hnone, hin.trans hout⟩
  | moved =>
    obtain ⟨hnone, hout⟩ := hst
    exact ⟨hsnap.trans hnone, hin.trans hout⟩
  | listening =>
    obtain ⟨hsub, hnone, hout⟩ := hst
    exact ⟨(he.subscribed c).mpr hsub, hsnap.trans hnone, hin.trans hout⟩
  | snapped hist =>
    obtain ⟨hsub, ⟨n, hn, hhist⟩, hout⟩ := hst
    refine ⟨(he.subscribed c).mpr hsub, ⟨n, hsnap.trans hn, ?_⟩, hin.trans hout⟩
    obtain ⟨more, hmore⟩ := hgrow
    rw [← hmore, List.take_append_of_le_length (hle n hn)]
    exact hhist
  | shown =>
    obtain ⟨hsub, hdone⟩ := hst
    exact ⟨(he.subscribed c).mpr hsub, hin.trans hdone⟩

theorem SwitchStage.Holds.subscribed {st : SwitchStage} (hst : st.Holds J c h g)
    (hin : g.installed = true) : h.Subscribed c J := by
  cases st with
  | shown => exact hst.1
  | leaving => exact absurd hin (by rw [hst.2.2]; exact Bool.false_ne_true)
  | moved => exact absurd hin (by rw [hst.2]; exact Bool.false_ne_true)
  | listening => exact hst.1
  | snapped hist => exact hst.1

theorem ChatStage.Holds.grows {st : ChatStage} (hst : st.Holds c y h g)
    (hgrow : h.chatHistory c <+: h'.chatHistory c)
    (hpending : g'.pending (.client y) = g.pending (.client y)) : st.Holds c y h' g' := by
  cases st with
  | due m =>
    obtain ⟨hm, k, hk, hentry⟩ := hst
    exact ⟨hm, k, hpending.trans hk, IsEntry.grows hentry hgrow⟩
  | composing => exact hpending.trans hst
  | done => exact hpending.trans hst

theorem ChatStage.Holds.free {st : ChatStage} (hst : st.Holds c y h g) (hfree : ∀ m, st ≠ .due m) :
    g.pending (.client y) = none := by
  cases st with
  | due m => exact absurd rfl (hfree m)
  | composing => exact hst
  | done => exact hst

theorem Recorded.snapshot_le (hr : Recorded J c h₀ drawer h g) :
    ∀ n ∈ g.snapshot, n ≤ (h.chatHistory c).length := by
  rw [← hr.entries]
  exact hr.inv.snapshot_le

/-- A call that has nothing to do with chat. -/
theorem Recorded.quiet (hr : Recorded J c h₀ drawer h g) (happends : op.appends h ≠ some c)
    (hmsg : ∀ msg ∈ op.message, msg.hasChat = false) (htunes : ∀ y, y ≠ J → op.tunes ≠ some y) :
    Recorded J c h₀ drawer (op.run h).2 g := by
  have hsame := chatHistory_run happends
  obtain ⟨sent, hsent, hlist⟩ := hr.list
  refine ⟨hr.inv, by rw [hsame]; exact hr.entries,
    fun y hy => (current_run (htunes y hy)).trans (hr.current y hy), hr.rest,
    sent ++ op.sends h, ?_, ?_⟩
  · rw [HubOp.outbox_sends, hsent, List.append_assoc]
  · rw [hsame, framesTo_append, ChatDrawer.shows_append, ChatDrawer.shows_of_quiet]
    · exact hlist
    · intro msg now hmem
      obtain ⟨queue, hd⟩ := mem_framesTo.mp hmem
      exact hmsg msg (HubOp.message_of_sends hd).1

theorem Recorded.append (hr : Recorded J c h₀ drawer h g) (hy : y ≠ J)
    (hcurrent : (h.heap y).currentChannelID = c)
    (hfew : (((HubOp.appendChat y m).run h).2.chatHistory c).length < 30)
    (hstep : CatchUp.step g (.append (.client y)) = some g') :
    ((HubOp.appendChat y m).run h).2.chatHistory c = h.chatHistory c ++ [m] ∧
      Recorded J c h₀ drawer ((HubOp.appendChat y m).run h).2 g' := by
  have hhist : ((HubOp.appendChat y m).run h).2.chatHistory c = h.chatHistory c ++ [m] := by
    have hpush : ((HubOp.appendChat y m).run h).2 = h.pushHistory c m := by
      rw [← hcurrent]
      rfl
    rw [hpush] at hfew ⊢
    exact pushHistory_chatHistory hfew
  have hinv := hr.inv.step hstep
  obtain ⟨_, rfl⟩ := CatchUp.step_append hstep
  obtain ⟨sent, hsent, hlist⟩ := hr.list
  refine ⟨hhist, hinv, ?_, hr.current, fun i hi => ?_, sent, hsent, fun hin => ?_⟩
  · rw [hhist, List.length_append]
    exact congrArg (· + 1) hr.entries
  · exact (Function.update_of_ne (hi y hy) ..).trans (hr.rest i hi)
  · rw [hhist]
    exact (hlist hin).imp fun m k hm => hm.grows (List.prefix_append ..)

theorem Recorded.publish (hr : Recorded J c h₀ drawer h g) (hy : y ≠ J) {k : ℕ}
    (hdrawer : drawer.currentChannelID = c) (hm : m.channelID = c)
    (hk : g.pending (.client y) = some k) (hentry : (h.chatHistory c)[k]? = some m)
    (hsub : g.installed = true → h.Subscribed c J)
    (hstep : CatchUp.step g (.publish (.client y)) = some g') :
    Recorded J c h₀ drawer ((HubOp.broadcastSignal c (.chatMessage m)).run h).2 g' := by
  have hinv := hr.inv.step hstep
  obtain ⟨k', hk', rfl⟩ := CatchUp.step_publish hstep
  obtain rfl : k = k' := Option.some.inj (hk.symm.trans hk')
  obtain ⟨sent, hsent, hlist⟩ := hr.list
  refine ⟨hinv, hr.entries, hr.current, fun i hi => ?_,
    sent ++ (HubOp.broadcastSignal c (.chatMessage m)).sends h, ?_, fun hin => ?_⟩
  · exact (Function.update_of_ne (hi y hy) ..).trans (hr.rest i hi)
  · rw [HubOp.outbox_sends, hsent, List.append_assoc]
  · -- `J` is among the subscribers once, so it is handed the message once
    have honce : (h.subscribersOf c).count J = 1 :=
      List.count_eq_one_of_mem (Hub.nodup_subscribersOf c h) (Hub.mem_subscribersOf.mpr (hsub hin))
    have hframes : framesTo J ((HubOp.broadcastSignal c (.chatMessage m)).sends h) =
        [.json (.chatMessage m) h.unixMilli] := by
      rw [HubOp.sends, framesTo_map, honce]
      rfl
    have hcurrent : m.channelID = (drawer.shows (framesTo J sent)).currentChannelID := by
      rw [ChatDrawer.shows_current, hdrawer, hm]
    rw [framesTo_append, ChatDrawer.shows_append, hframes, ChatDrawer.shows_singleton,
      ChatDrawer.onMessage_chatMessage hcurrent]
    exact List.rel_append (hlist hin) (.cons hentry .nil)

theorem Recorded.snap (hr : Recorded J c h₀ drawer h g)
    (hstep : CatchUp.step g .snap = some g') : Recorded J c h₀ drawer h g' := by
  have hinv := hr.inv.step hstep
  obtain ⟨_, rfl⟩ := CatchUp.step_snap hstep
  exact ⟨hinv, hr.entries, hr.current, hr.rest, hr.list⟩

/-- The first entries of a list have the first numbers. -/
theorem forall₂_take {n : ℕ} (hn : n ≤ hist.length) :
    List.Forall₂ (IsEntry hist) (hist.take n) (List.range n) := by
  have hlength : (hist.take n).length = (List.range n).length := by
    rw [List.length_take, List.length_range]
    omega
  refine List.forall₂_iff_get.mpr ⟨hlength, fun i hi hi' => ?_⟩
  unfold IsEntry
  simp only [List.get_eq_getElem, List.getElem_range, List.getElem_take]
  rw [List.length_take] at hi
  exact List.getElem?_eq_getElem (by omega)

theorem Recorded.install (hr : Recorded J c h₀ drawer h g) {n : ℕ}
    (hdrawer : drawer.currentChannelID = c) (hn : g.snapshot = some n)
    (hhist : hist = (h.chatHistory c).take n)
    (hstep : CatchUp.step g .install = some g') :
    Recorded J c h₀ drawer ((HubOp.sendJSON J (.chatHistory c hist)).run h).2 g' := by
  have hinv := hr.inv.step hstep
  have hle := hr.snapshot_le n hn
  obtain ⟨_, n', hn', rfl⟩ := CatchUp.step_install hstep
  obtain rfl : n = n' := Option.some.inj (hn.symm.trans hn')
  obtain ⟨sent, hsent, _⟩ := hr.list
  refine ⟨hinv, hr.entries, hr.current, hr.rest,
    sent ++ (HubOp.sendJSON J (.chatHistory c hist)).sends h, ?_, fun _ => ?_⟩
  · rw [HubOp.outbox_sends, hsent, List.append_assoc]
  · -- the page replaces its list by the history, which is the first `n` entries
    have hframes : framesTo J ((HubOp.sendJSON J (.chatHistory c hist)).sends h) =
        [.json (.chatHistory c hist) h.unixMilli] := by
      simp [HubOp.sends, framesTo]
    have hcurrent : (drawer.shows (framesTo J sent)).currentChannelID = c := by
      rw [ChatDrawer.shows_current, hdrawer]
    rw [framesTo_append, ChatDrawer.shows_append, hframes, ChatDrawer.shows_singleton,
      ChatDrawer.onMessage_chatHistory hcurrent.symm, hhist]
    exact forall₂_take hle

end Calls

/-- Time passes, a handler goes on, or somebody else on `c` starts to write. -/
def ServerEvent.ChatsOn (J : ClientRef) (c : ChannelID) (h : Hub) : ServerEvent → Prop
  | serve (.signal y (.chatMessage _) _) => y ≠ J ∧ (h.heap y).currentChannelID = c
  | serve _ | timerFires .. => False
  | advance _ | tick _ => True

instance (J : ClientRef) (c : ChannelID) (h : Hub) (e : ServerEvent) :
    Decidable (e.ChatsOn J c h) := by
  unfold ServerEvent.ChatsOn
  split <;> infer_instance

/-- `J` is switching to `c`, which is as `d` says, nobody else does anything but write on `c`, and
the transcript is of this. -/
structure Transcribing (J : ClientRef) (c : ChannelID) (d : ChannelDef) (h₀ : Hub)
    (drawer : ChatDrawer) (s : ChatServer) : Prop where
  recorded : Recorded J c h₀ drawer s.hub s.history
  channel : s.hub.definitionOf c = some d
  switch : ∃ st : SwitchStage, st.Holds J c s.hub s.history ∧
    (s.pool.task (.client J)).Follows (switching J c d) (fun _ st => st = .shown) st
  chat : ∀ y, y ≠ J → ∃ st : ChatStage, st.Holds c y s.hub s.history ∧
    (s.pool.task (.client y)).Follows (chatting y c) (fun _ st => ∀ m, st ≠ .due m) st
  member : ∀ y, y ≠ J → s.pool.Idle (.client y) ∨ (h₀.heap y).currentChannelID = c
  others : ∀ i, (∀ x, i ≠ .client x) → s.pool.Idle i

section Transcribing

variable {J y : ClientRef} {c : ChannelID} {d : ChannelDef} {h₀ : Hub} {drawer : ChatDrawer}
  {s t : ChatServer} {e : ServerEvent} {i : Thread} {op : HubOp} {r : op.Res} {h : Hub}
  {g g' : CatchUp.State Thread} {a : CatchUp.Event Thread}

theorem sees_of_quiet (hevent : op.chatEvent J c i h = none) :
    (chatObserver J c).sees i op r h g = g := by
  show ((op.chatEvent J c i h).bind (CatchUp.step g)).getD g = g
  rw [hevent]
  rfl

theorem sees_of_event (hevent : op.chatEvent J c i h = some a)
    (hstep : CatchUp.step g a = some g') : (chatObserver J c).sees i op r h g = g' := by
  show ((op.chatEvent J c i h).bind (CatchUp.step g)).getD g = g'
  rw [hevent]
  show (CatchUp.step g a).getD g = g'
  rw [hstep]
  rfl

theorem tracks_of_quiet (hevent : chatStep J c s e = none) (hsame : t.history = s.history) :
    Tracks J c s e t := by
  unfold Tracks
  rw [hevent]
  exact hsame

theorem tracks_of_event (hevent : chatStep J c s e = some a)
    (hstep : CatchUp.step s.history a = some t.history) : Tracks J c s e t := by
  unfold Tracks
  rw [hevent]
  exact hstep

theorem chatStep_advance {k : op.Res → HubProg Unit} (hk : s.pool.task i = .call op k) :
    chatStep J c s (.advance i) = op.chatEvent J c i s.hub := by
  rw [chatStep, hk]
  rfl

/-- What is left to show of a call of `y` is about its own message and the transcript. -/
theorem Transcribing.of_chat (hs : Transcribing J c d h₀ drawer s) (hy : y ≠ J)
    (h : serverStep (chatObserver J c) s (.advance (.client y)) = some t)
    (hrecorded : Recorded J c h₀ drawer t.hub t.history)
    (hchat : ∃ st : ChatStage, st.Holds c y t.hub t.history ∧
      (t.pool.task (.client y)).Follows (chatting y c) (fun _ st => ∀ m, st ≠ .due m) st)
    (helse : Elsewhere J s.hub t.hub) (hgrow : s.hub.chatHistory c <+: t.hub.chatHistory c)
    (hsnap : t.history.snapshot = s.history.snapshot)
    (hin : t.history.installed = s.history.installed)
    (hpending : ∀ z, z ≠ y → t.history.pending (.client z) = s.history.pending (.client z)) :
    Transcribing J c d h₀ drawer t := by
  have hmoves : ∀ j, j ≠ .client y → t.pool.task j = s.pool.task j :=
    fun j hj => serverStep_task h fun heq => hj (Option.some.inj heq).symm
  refine ⟨hrecorded, helse.definition c d hs.channel, ?_, fun z hz => ?_, fun z hz => ?_,
    fun j hj => (hmoves j (hj y)).trans (hs.others j hj)⟩
  · obtain ⟨st, hst, hfollows⟩ := hs.switch
    refine ⟨st, hst.elsewhere helse hgrow hs.recorded.snapshot_le hsnap hin, ?_⟩
    rw [hmoves _ fun heq => hy (Thread.client.inj heq).symm]
    exact hfollows
  · by_cases hzy : z = y
    · exact hzy ▸ hchat
    · obtain ⟨st, hst, hfollows⟩ := hs.chat z hz
      refine ⟨st, hst.grows hgrow (hpending z hzy), ?_⟩
      rw [hmoves _ fun heq => hzy (Thread.client.inj heq)]
      exact hfollows
  · by_cases hzy : z = y
    · -- `y` was not idle before, so it was one of those on the channel
      obtain ⟨op, k, hk, _⟩ := serverStep_advance h
      exact Or.inr ((hs.member z hz).resolve_left (hzy ▸ Pool.not_idle_of_call hk))
    · rw [Pool.Idle, hmoves _ fun heq => hzy (Thread.client.inj heq)]
      exact hs.member z hz

/-- A call of `y` that only looks. -/
theorem Transcribing.chat_looks (hs : Transcribing J c d h₀ drawer s) (hy : y ≠ J)
    (h : serverStep (chatObserver J c) s (.advance (.client y)) = some t)
    {k : op.Res → HubProg Unit} (hk : s.pool.task (.client y) = .call op k)
    (hevent : op.chatEvent J c (.client y) s.hub = none) (hsame : (op.run s.hub).2 = s.hub)
    {st : ChatStage} (hst : st.Holds c y s.hub s.history)
    (hrest : (k (op.run s.hub).1).Follows (chatting y c) (fun _ st => ∀ m, st ≠ .due m) st) :
    Tracks J c s (.advance (.client y)) t ∧ Transcribing J c d h₀ drawer t := by
  obtain ⟨op', k', hk', _, hhub, hseen, htask, _⟩ := serverStep_advance h
  rw [hk] at hk'
  cases hk'
  have hhistory : t.history = s.history := hseen.trans (sees_of_quiet hevent)
  rw [hsame] at hhub
  refine ⟨tracks_of_quiet ((chatStep_advance hk).trans hevent) hhistory, ?_⟩
  apply hs.of_chat hy h
  · rw [hhub, hhistory]
    exact hs.recorded
  · rw [hhub, hhistory, htask]
    exact ⟨st, hst, hrest⟩
  · rw [hhub]
    exact Elsewhere.refl J s.hub
  · rw [hhub]
  · rw [hhistory]
  · rw [hhistory]
  · intro z _
    rw [hhistory]

/-- The message of `y` goes to the history. -/
theorem Transcribing.chat_appends (hs : Transcribing J c d h₀ drawer s) (hy : y ≠ J)
    (h : serverStep (chatObserver J c) s (.advance (.client y)) = some t)
    {m : ChatMessagePayload Bytes} {k : Option ChannelID → HubProg Unit}
    (hk : s.pool.task (.client y) = .call (.appendChat y m) k)
    (hcurrent : (s.hub.heap y).currentChannelID = c) (hm : m.channelID = c)
    (hfree : s.history.pending (.client y) = none) (hfew : (t.hub.chatHistory c).length < 30)
    (hrest : (k (some c)).Follows (chatting y c) (fun _ st => ∀ m, st ≠ .due m) (.due m)) :
    Tracks J c s (.advance (.client y)) t ∧ Transcribing J c d h₀ drawer t := by
  obtain ⟨op', k', hk', _, hhub, hseen, htask, _⟩ := serverStep_advance h
  rw [hk] at hk'
  cases hk'
  have hevent : (HubOp.appendChat y m).chatEvent J c (.client y) s.hub =
      some (.append (.client y)) := if_pos hcurrent
  have hstep : CatchUp.step s.history (.append (.client y)) = some _ := if_pos hfree
  have hhistory := hseen.trans (sees_of_event hevent hstep)
  rw [hhub] at hfew
  obtain ⟨hhist, hrecorded⟩ := hs.recorded.append hy hcurrent hfew hstep
  refine ⟨tracks_of_event ((chatStep_advance hk).trans hevent) (hhistory ▸ hstep), ?_⟩
  apply hs.of_chat hy h
  · rw [hhub, hhistory]
    exact hrecorded
  · -- the message is due, under the number that the history had room for next
    rw [hhub, hhistory, htask]
    refine ⟨.due m, ⟨hm, s.history.entries, Function.update_self .., ?_⟩, ?_⟩
    · rw [hhist, hs.recorded.entries]
      exact List.getElem?_concat_length
    · have hchannel := Hub.hasChannel_iff_definition.mpr ⟨d, hs.channel⟩
      have hanswer : ((HubOp.appendChat y m).run s.hub).1 = some c :=
        Hub.channelOf_some hcurrent hchannel
      rw [hanswer]
      exact hrest
  · rw [hhub]
    exact elsewhere_run (by rintro ⟨⟩) s.hub
  · rw [hhub, hhist]
    exact List.prefix_append ..
  · rw [hhistory]
  · rw [hhistory]
  · intro z hz
    rw [hhistory]
    exact Function.update_of_ne (fun heq => hz (Thread.client.inj heq)) ..

/-- The message of `y` goes to whoever is subscribed. -/
theorem Transcribing.chat_publishes (hs : Transcribing J c d h₀ drawer s) (hy : y ≠ J)
    (hdrawer : drawer.currentChannelID = c)
    (h : serverStep (chatObserver J c) s (.advance (.client y)) = some t)
    {m : ChatMessagePayload Bytes} {k : Unit → HubProg Unit}
    (hk : s.pool.task (.client y) = .call (.broadcastSignal c (.chatMessage m)) k)
    (hdue : (ChatStage.due m).Holds c y s.hub s.history)
    (hrest : (k ()).Follows (chatting y c) (fun _ st => ∀ m, st ≠ .due m) .done) :
    Tracks J c s (.advance (.client y)) t ∧ Transcribing J c d h₀ drawer t := by
  obtain ⟨op', k', hk', _, hhub, hseen, htask, _⟩ := serverStep_advance h
  rw [hk] at hk'
  cases hk'
  obtain ⟨hm, n, hn, hentry⟩ := hdue
  have hevent : (HubOp.broadcastSignal c (.chatMessage m)).chatEvent J c (.client y) s.hub =
      some (.publish (.client y)) := if_pos rfl
  have hstep : CatchUp.step s.history (.publish (.client y)) = some _ := congrArg (Option.map _) hn
  have hhistory := hseen.trans (sees_of_event hevent hstep)
  -- once `J` has been sent the history, it is subscribed and gets the message
  have hsub : s.history.installed = true → s.hub.Subscribed c J := by
    obtain ⟨st, hswitch, _⟩ := hs.switch
    exact hswitch.subscribed
  have hrecorded := hs.recorded.publish hy hdrawer hm hn hentry hsub hstep
  refine ⟨tracks_of_event ((chatStep_advance hk).trans hevent) (hhistory ▸ hstep), ?_⟩
  apply hs.of_chat hy h
  · rw [hhub, hhistory]
    exact hrecorded
  · rw [hhistory, htask]
    exact ⟨.done, Function.update_self .., hrest⟩
  · rw [hhub]
    exact elsewhere_run (by rintro ⟨⟩) s.hub
  · rw [hhub]
    exact List.prefix_rfl
  · rw [hhistory]
  · rw [hhistory]
  · intro z hz
    rw [hhistory]
    exact Function.update_of_ne (fun heq => hz (Thread.client.inj heq)) ..

/-- A call of somebody who writes on the channel. -/
theorem Transcribing.advance_chat (hs : Transcribing J c d h₀ drawer s) (hy : y ≠ J)
    (hdrawer : drawer.currentChannelID = c)
    (h : serverStep (chatObserver J c) s (.advance (.client y)) = some t)
    (hfew : (t.hub.chatHistory c).length < 30) :
    Tracks J c s (.advance (.client y)) t ∧ Transcribing J c d h₀ drawer t := by
  obtain ⟨op, k, hk, _⟩ := serverStep_advance h
  obtain ⟨st, hst, hfollows⟩ := hs.chat y hy
  rw [hk] at hfollows
  obtain ⟨hok, hrest⟩ := hfollows
  have hcurrent : (s.hub.heap y).currentChannelID = c := by
    rw [hs.recorded.current y hy]
    exact (hs.member y hy).resolve_left (Pool.not_idle_of_call hk)
  -- composing: looks, then the append; with its message due, the one broadcast
  cases st with
  | composing =>
    rcases hok with rfl | rfl | ⟨m, rfl, hm⟩
    · exact hs.chat_looks hy h hk rfl rfl hst (hrest _ trivial)
    · exact hs.chat_looks hy h hk rfl rfl hst (hrest _ hcurrent)
    · exact hs.chat_appends hy h hk hcurrent hm hst hfew (hrest _ rfl)
  | due m =>
    obtain rfl : op = _ := hok
    exact hs.chat_publishes hy hdrawer h hk hst (hrest _ trivial)
  | done => exact hok.elim

/-- What is left to show of a call of `J` is about its switch and the transcript. -/
theorem Transcribing.of_switch (hs : Transcribing J c d h₀ drawer s)
    (h : serverStep (chatObserver J c) s (.advance (.client J)) = some t)
    (hrecorded : Recorded J c h₀ drawer t.hub t.history)
    (hswitch : ∃ st : SwitchStage, st.Holds J c t.hub t.history ∧
      (t.pool.task (.client J)).Follows (switching J c d) (fun _ st => st = .shown) st)
    (hsame : t.hub.chatHistory c = s.hub.chatHistory c)
    (hpending : t.history.pending = s.history.pending) : Transcribing J c d h₀ drawer t := by
  have hmoves : ∀ j, j ≠ .client J → t.pool.task j = s.pool.task j :=
    fun j hj => serverStep_task h fun heq => hj (Option.some.inj heq).symm
  have hne : ∀ z, z ≠ J → Thread.client z ≠ .client J := fun z hz heq => hz (Thread.client.inj heq)
  obtain ⟨op, k, _, _, hhub, _⟩ := serverStep_advance h
  refine ⟨hrecorded, hhub ▸ definitionOf_run op hs.channel, hswitch, fun z hz => ?_,
    fun z hz => ?_, fun j hj => (hmoves j (hj J)).trans (hs.others j hj)⟩
  · obtain ⟨st, hst, hfollows⟩ := hs.chat z hz
    refine ⟨st, hst.grows (hsame ▸ List.prefix_rfl) (congrFun hpending _), ?_⟩
    rw [hmoves _ (hne z hz)]
    exact hfollows
  · rw [Pool.Idle, hmoves _ (hne z hz)]
    exact hs.member z hz

/-- A call of `J` that is no part of the transcript. -/
theorem Transcribing.switch_moves (hs : Transcribing J c d h₀ drawer s)
    (h : serverStep (chatObserver J c) s (.advance (.client J)) = some t)
    {k : op.Res → HubProg Unit} (hk : s.pool.task (.client J) = .call op k)
    (hevent : op.chatEvent J c (.client J) s.hub = none) (happends : op.appends s.hub = none)
    (hquiet : ∀ msg ∈ op.message, msg.hasChat = false) (htunes : ∀ y, y ≠ J → op.tunes ≠ some y)
    {st : SwitchStage} (hst : st.Holds J c (op.run s.hub).2 s.history)
    (hrest : (k (op.run s.hub).1).Follows (switching J c d) (fun _ st => st = .shown) st) :
    Tracks J c s (.advance (.client J)) t ∧ Transcribing J c d h₀ drawer t := by
  obtain ⟨op', k', hk', _, hhub, hseen, htask, _⟩ := serverStep_advance h
  rw [hk] at hk'
  cases hk'
  have hhistory : t.history = s.history := hseen.trans (sees_of_quiet hevent)
  have hsame : op.appends s.hub ≠ some c := by
    rw [happends]
    exact (Option.some_ne_none c).symm
  refine ⟨tracks_of_quiet ((chatStep_advance hk).trans hevent) hhistory, ?_⟩
  apply hs.of_switch h
  · rw [hhub, hhistory]
    exact hs.recorded.quiet hsame hquiet htunes
  · rw [hhub, hhistory, htask]
    exact ⟨st, hst, hrest⟩
  · rw [hhub, chatHistory_run hsame]
  · rw [hhistory]

/-- `J` looks up the history. -/
theorem Transcribing.switch_snaps (hs : Transcribing J c d h₀ drawer s)
    (h : serverStep (chatObserver J c) s (.advance (.client J)) = some t)
    {k : (HubOp.history c).Res → HubProg Unit}
    (hk : s.pool.task (.client J) = .call (.history c) k)
    (hst : SwitchStage.listening.Holds J c s.hub s.history)
    (hrest : (k ((HubOp.history c).run s.hub).1).Follows (switching J c d)
      (fun _ st => st = .shown) (.snapped (s.hub.chatHistory c))) :
    Tracks J c s (.advance (.client J)) t ∧ Transcribing J c d h₀ drawer t := by
  obtain ⟨op', k', hk', _, hhub, hseen, htask, _⟩ := serverStep_advance h
  rw [hk] at hk'
  cases hk'
  obtain ⟨hsub, hsnap, hout⟩ := hst
  have hevent : (HubOp.history c).chatEvent J c (.client J) s.hub = some .snap :=
    if_pos ⟨rfl, rfl⟩
  have hstep : CatchUp.step s.history .snap = some _ := if_pos hsnap
  have hhistory := hseen.trans (sees_of_event hevent hstep)
  have hrecorded := hs.recorded.snap hstep
  refine ⟨tracks_of_event ((chatStep_advance hk).trans hevent) (hhistory ▸ hstep), ?_⟩
  apply hs.of_switch h
  · rw [hhub, hhistory]
    exact hrecorded
  · -- what has been looked up is all there is so far
    rw [hhub, hhistory, htask]
    refine ⟨.snapped (s.hub.chatHistory c), ⟨hsub, ⟨s.history.entries, rfl, ?_⟩, hout⟩, hrest⟩
    rw [hs.recorded.entries]
    exact List.take_length.symm
  · rw [hhub]
    rfl
  · rw [hhistory]

/-- `J` is sent the history that has been looked up. -/
theorem Transcribing.switch_installs (hs : Transcribing J c d h₀ drawer s)
    (hdrawer : drawer.currentChannelID = c)
    (h : serverStep (chatObserver J c) s (.advance (.client J)) = some t)
    {hist : List (ChatMessagePayload Bytes)} {k : Unit → HubProg Unit}
    (hk : s.pool.task (.client J) = .call (.sendJSON J (.chatHistory c hist)) k)
    (hst : (SwitchStage.snapped hist).Holds J c s.hub s.history)
    (hrest : (k ()).Follows (switching J c d) (fun _ st => st = .shown) .shown) :
    Tracks J c s (.advance (.client J)) t ∧ Transcribing J c d h₀ drawer t := by
  obtain ⟨op', k', hk', _, hhub, hseen, htask, _⟩ := serverStep_advance h
  rw [hk] at hk'
  cases hk'
  obtain ⟨hsub, ⟨n, hn, hhist⟩, hout⟩ := hst
  have hevent : (HubOp.sendJSON J (.chatHistory c hist)).chatEvent J c (.client J) s.hub =
      some .install := if_pos ⟨rfl, rfl⟩
  have hstep : CatchUp.step s.history .install =
      some { s.history with installed := true, copy := List.range n } := by
    simp [CatchUp.step, hout, hn]
  have hhistory := hseen.trans (sees_of_event hevent hstep)
  have hrecorded := hs.recorded.install hdrawer hn hhist hstep
  refine ⟨tracks_of_event ((chatStep_advance hk).trans hevent) (hhistory ▸ hstep), ?_⟩
  apply hs.of_switch h
  · rw [hhub, hhistory]
    exact hrecorded
  · rw [hhub, hhistory, htask]
    exact ⟨.shown, ⟨hsub, rfl⟩, hrest⟩
  · rw [hhub]
    rfl
  · rw [hhistory]

/-- A call of the client that joins. -/
theorem Transcribing.advance_switch (hs : Transcribing J c d h₀ drawer s)
    (hdrawer : drawer.currentChannelID = c)
    (h : serverStep (chatObserver J c) s (.advance (.client J)) = some t) :
    Tracks J c s (.advance (.client J)) t ∧ Transcribing J c d h₀ drawer t := by
  obtain ⟨op, k, hk, _⟩ := serverStep_advance h
  obtain ⟨st, hst, hfollows⟩ := hs.switch
  rw [hk] at hfollows
  obtain ⟨hok, hrest⟩ := hfollows
  have hnobody : ∀ {o : Option ClientRef}, o = none → ∀ y, y ≠ J → o ≠ some y :=
    fun hnone y _ => hnone ▸ (Option.some_ne_none y).symm
  have hsilent : ∀ msg ∈ (none : Option Signal), msg.hasChat = false := fun _ hmsg => by cases hmsg
  -- a hushed call leaves the stage as it is; any other is the one the stage awaits
  rcases hok with hhushed | hawaits
  · have helse : Elsewhere J s.hub (op.run s.hub).2 := by
      apply elsewhere_run
      rw [HubOp.touched_of_hushed hhushed]
      exact (Option.some_ne_none J).symm
    have happends := HubOp.appends_of_hushed (h := s.hub) hhushed
    have hsame : (op.run s.hub).2.chatHistory c = s.hub.chatHistory c := by
      apply chatHistory_run
      rw [happends]
      exact (Option.some_ne_none c).symm
    have hstays : (switching J c d).next st op (op.run s.hub).1 = st := st.next_of_hushed hhushed _
    have hnext := hrest (op.run s.hub).1 (can_of_hushed hhushed _)
    rw [hstays] at hnext
    exact hs.switch_moves h hk (HubOp.chatEvent_of_hushed hhushed ..) happends
      (HubOp.quiet_of_hushed hhushed) (hnobody (HubOp.tunes_of_hushed hhushed))
      (hst.elsewhere helse (hsame ▸ List.prefix_rfl) hs.recorded.snapshot_le rfl rfl) hnext
  cases st with
  | leaving =>
    rcases hawaits with rfl | rfl | ⟨ch, rfl⟩ | rfl
    · exact hs.switch_moves h hk rfl rfl hsilent (hnobody rfl) hst (hrest _ hs.channel)
    · exact hs.switch_moves h hk rfl rfl hsilent (hnobody rfl) hst (hrest _ hst.1)
    · have htunes : (HubOp.removeSubscriber ch J).tunes ≠ some J := by
        rintro ⟨⟩
      have hcurrent := current_run htunes (h := s.hub)
      have hst' : SwitchStage.leaving.Holds J c ((HubOp.removeSubscriber ch J).run s.hub).2
          s.history := ⟨hcurrent ▸ hst.1, hst.2⟩
      exact hs.switch_moves h hk rfl rfl hsilent (hnobody rfl) hst' (hrest _ trivial)
    · have hmoved : SwitchStage.moved.Holds J c ((HubOp.setCurrentChannel J c).run s.hub).2
          s.history := hst.2
      exact hs.switch_moves h hk rfl rfl hsilent
        (fun y hy heq => hy (Option.some.inj heq).symm) hmoved (hrest _ trivial)
  | moved =>
    obtain rfl : op = _ := hawaits
    have hchannel := Hub.hasChannel_iff_definition.mpr ⟨d, hs.channel⟩
    have hlistening : SwitchStage.listening.Holds J c ((HubOp.addSubscriber c J).run s.hub).2
        s.history := ⟨subscribed_addSubscriber J hchannel, hst⟩
    exact hs.switch_moves h hk rfl rfl hsilent (hnobody rfl) hlistening (hrest _ trivial)
  | listening =>
    obtain rfl : op = _ := hawaits
    exact hs.switch_snaps h hk hst (hrest ((HubOp.history c).run s.hub).1 trivial)
  | snapped hist =>
    obtain rfl : op = _ := hawaits
    exact hs.switch_installs hdrawer h hk hst (hrest _ trivial)
  | shown => exact hawaits.elim

theorem Transcribing.serve (hs : Transcribing J c d h₀ drawer s) {q : Request}
    (he : (ServerEvent.serve q).ChatsOn J c h₀)
    (h : serverStep (chatObserver J c) s (.serve q) = some t) : Transcribing J c d h₀ drawer t := by
  obtain ⟨_, hidle, _, _, htask, hothers⟩ := serverStep_serve h
  obtain ⟨hhub, hstarts⟩ := serverStep_starts h
  have hhistory : t.history = s.history := hstarts
  cases q with
  | signal y msg choices =>
    cases msg with
    | chatMessage p =>
      obtain ⟨hy, hc⟩ := he
      have hmoves : ∀ j, j ≠ .client y → t.pool.task j = s.pool.task j := hothers
      refine ⟨?_, hhub ▸ hs.channel, ?_, fun z hz => ?_, fun z hz => ?_,
        fun j hj => (hmoves j (hj y)).trans (hs.others j hj)⟩
      · rw [hhub, hhistory]
        exact hs.recorded
      · rw [hhub, hhistory, hmoves _ fun heq => hy (Thread.client.inj heq).symm]
        exact hs.switch
      · rw [hhub, hhistory]
        obtain ⟨st, hst, hfollows⟩ := hs.chat z hz
        by_cases hzy : z = y
        · subst hzy
          refine ⟨.composing, ?_, ?_⟩
          · -- the message before this one has been broadcast
            rw [show s.pool.task (.client z) = .ret () from hidle] at hfollows
            exact hst.free hfollows
          · rw [show t.pool.task (.client z) = _ from htask]
            exact chatting_chatSignal p choices
        · refine ⟨st, hst, ?_⟩
          rw [hmoves _ fun heq => hzy (Thread.client.inj heq)]
          exact hfollows
      · by_cases hzy : z = y
        · exact Or.inr (hzy ▸ hc)
        · rw [Pool.Idle, hmoves _ fun heq => hzy (Thread.client.inj heq)]
          exact hs.member z hz
    | _ => exact he.elim
  | _ => exact he.elim

theorem Transcribing.step (hs : Transcribing J c d h₀ drawer s)
    (hdrawer : drawer.currentChannelID = c) (he : e.ChatsOn J c h₀)
    (h : serverStep (chatObserver J c) s e = some t) (hfew : (t.hub.chatHistory c).length < 30) :
    Tracks J c s e t ∧ Transcribing J c d h₀ drawer t := by
  cases e with
  | serve q =>
    exact ⟨tracks_of_quiet rfl (serverStep_starts h).2, hs.serve he h⟩
  | advance i =>
    by_cases hclient : ∃ x, i = .client x
    · obtain ⟨x, rfl⟩ := hclient
      by_cases hx : x = J
      · subst hx
        exact hs.advance_switch hdrawer h
      · exact hs.advance_chat hx hdrawer h hfew
    · -- timers and the relay have nothing to do
      obtain ⟨op, k, hk, _⟩ := serverStep_advance h
      exact absurd (hs.others i fun x hx => hclient ⟨x, hx⟩) (Pool.not_idle_of_call hk)
  | timerFires ch timer => exact he.elim
  -- nobody looks at the clock but to stamp what it sends
  | tick n =>
    obtain ⟨hhub, _, hhistory, htask⟩ := serverStep_tick h
    refine ⟨tracks_of_quiet rfl hhistory, ?_⟩
    have hr := hs.recorded
    obtain ⟨st, hst, hfollows⟩ := hs.switch
    refine ⟨?_, ?_, ⟨st, ?_, htask ▸ hfollows⟩, fun y hy => ?_, fun y hy => ?_, fun i hi => ?_⟩
    · rw [hhub, hhistory]
      exact ⟨hr.inv, hr.entries, hr.current, hr.rest, hr.list⟩
    · rw [hhub]
      exact hs.channel
    · rw [hhub, hhistory]
      exact hst.elsewhere (Elsewhere.of_eq rfl Iff.rfl rfl) List.prefix_rfl hr.snapshot_le rfl
        rfl
    · obtain ⟨st, hst, hfollows⟩ := hs.chat y hy
      rw [hhub, hhistory, htask]
      exact ⟨st, hst.grows List.prefix_rfl rfl, hfollows⟩
    · rw [Pool.Idle, htask]
      exact hs.member y hy
    · rw [Pool.Idle, htask]
      exact hs.others i hi

end Transcribing

/-- `J` switches to `c` and is not refused, while others on `c` write on it: the server is at rest
before and after, and the history is not full. -/
structure SwitchAmongChat (J : ClientRef) (c : ChannelID) (s₀ s₁ s : ChatServer)
    (es : List ServerEvent) : Prop where
  rest : ∀ i, s₀.pool.Idle i
  begun : s₀.history = { entries := (s₀.hub.chatHistory c).length }
  switches : ∃ d p choices, s₀.hub.definitionOf c = some d ∧ p.ok = true ∧ p.value.channelID = c ∧
    ¬ (d.isPrivate = true ∧ d.password ≠ p.value.password) ∧
    (s₀.hub.heap J).currentChannelID ≠ c ∧
    serverStep (chatObserver J c) s₀ (.serve (.signal J (.joinChannel p) choices)) = some s₁
  run : Run (serverStep (chatObserver J c)) s₁ es s
  chats : ∀ e ∈ es, e.ChatsOn J c s₀.hub
  done : ∀ i, s.pool.Idle i
  few : (s.hub.chatHistory c).length < 30

/-- The list of the page of `J`, which is on `c` and has `shown` on its list when the hub is as
`h₀`, after all that has been enqueued to `J` since then. Chat passes only one of the two queues. -/
def transcript (J : ClientRef) (c : ChannelID) (shown : List (ChatMessagePayload Bytes))
    (h₀ h : Hub) : List (ChatMessagePayload Bytes) :=
  (ChatDrawer.shows ⟨c, shown⟩
    (framesTo J (h.outbox.drop h₀.outbox.length))).chatMessagesList

section Switched

variable {J : ClientRef} {c : ChannelID} {d : ChannelDef} {s₀ s₁ s : ChatServer}
  {es : List ServerEvent} {drawer : ChatDrawer} {hist list : List (ChatMessagePayload Bytes)}

theorem Transcribing.init {p : Decoded JoinChannelPayload} {choices : Choices}
    (hrest : ∀ i, s₀.pool.Idle i)
    (hbegun : s₀.history = { entries := (s₀.hub.chatHistory c).length })
    (hdef : s₀.hub.definitionOf c = some d) (hok : p.ok = true) (hc : p.value.channelID = c)
    (hallowed : ¬ (d.isPrivate = true ∧ d.password ≠ p.value.password))
    (hJ : (s₀.hub.heap J).currentChannelID ≠ c)
    (h : serverStep (chatObserver J c) s₀ (.serve (.signal J (.joinChannel p) choices)) = some s₁) :
    s₁.history = { entries := (s₀.hub.chatHistory c).length } ∧
      Transcribing J c d s₀.hub drawer s₁ := by
  obtain ⟨_, _, _, _, htask, hothers⟩ := serverStep_serve h
  obtain ⟨hhub, hstarts⟩ := serverStep_starts h
  have hhistory : s₁.history = { entries := (s₀.hub.chatHistory c).length } :=
    hstarts.trans hbegun
  have hstill : ∀ i, i ≠ .client J → s₁.pool.Idle i := fun i hi => (hothers i hi).trans (hrest i)
  refine ⟨hhistory, ?_, hhub ▸ hdef, ⟨.leaving, ?_, ?_⟩, fun y hy => ⟨.composing, ?_, ?_⟩,
    fun y hy => Or.inl (hstill _ fun heq => hy (Thread.client.inj heq)),
    fun i hi => hstill i (hi J)⟩
  · rw [hhub, hhistory]
    exact ⟨CatchUp.inv_init _, rfl, fun _ _ => rfl, fun _ _ => rfl, [],
      (List.append_nil _).symm, fun hin => by cases hin⟩
  · rw [hhub, hhistory]
    exact ⟨hJ, rfl, rfl⟩
  · rw [show s₁.pool.task (.client J) = Hub.handleSignal J (.joinChannel p) choices from htask,
      Hub.handleSignal, Prog.when, if_pos hok, hc]
    exact switching_switchChannel hallowed
  · rw [hhistory]
    rfl
  · rw [show s₁.pool.task (.client y) = .ret () from
      hstill _ fun heq => hy (Thread.client.inj heq)]
    exact fun m heq => by cases heq

/-- When all is done, `J` has been sent the history and every message has been broadcast. -/
theorem Transcribing.settled (hs : Transcribing J c d s₀.hub drawer s)
    (hdone : ∀ i, s.pool.Idle i) :
    s.history.installed = true ∧ ∀ i, s.history.pending i = none := by
  constructor
  · obtain ⟨st, hst, hfollows⟩ := hs.switch
    rw [show s.pool.task (.client J) = .ret () from hdone _] at hfollows
    have hshown : st = .shown := hfollows
    subst hshown
    exact hst.2
  · intro i
    by_cases hi : ∃ y, y ≠ J ∧ i = .client y
    · obtain ⟨y, hy, rfl⟩ := hi
      obtain ⟨st, hst, hfollows⟩ := hs.chat y hy
      rw [show s.pool.task (.client y) = .ret () from hdone _] at hfollows
      exact hst.free hfollows
    · exact hs.recorded.rest i fun y hy heq => hi ⟨y, hy, heq⟩

theorem few_before (s : ChatServer) (e : ServerEvent) (t : ChatServer)
    (h : serverStep (chatObserver J c) s e = some t) (hfew : (t.hub.chatHistory c).length < 30) :
    (s.hub.chatHistory c).length < 30 := by
  rcases serverStep_part (f := Hub.chatHistory) (fun _ _ _ => rfl) h with
    hsame | ⟨i, op, k, _, _, hhub⟩
  · rwa [hsame] at hfew
  · rw [hhub] at hfew
    exact length_chatHistory_run hfew

/-- With a list of distinct entries, an entry is counted where its number is. -/
theorem count_of_entries (hnodup : hist.Nodup) {copy : List ℕ} {k : ℕ}
    {m : ChatMessagePayload Bytes} (hlist : List.Forall₂ (IsEntry hist) list copy)
    (hk : IsEntry hist m k) : list.count m = copy.count k := by
  -- along the list, each entry is compared by its number instead of by its content
  induction hlist with
  | nil => rfl
  | @cons m' k' rest rest' hm' _ ih =>
    have heq : m' = m ↔ k' = k := by
      constructor
      · rintro rfl
        obtain ⟨hlt, _⟩ := List.getElem?_eq_some_iff.mp hm'
        exact (List.getElem?_inj hlt hnodup).mp (hm'.trans hk.symm)
      · rintro rfl
        exact Option.some.inj (hm'.symm.trans hk)
    rw [List.count_cons, List.count_cons, ih]
    by_cases hkk : k' = k
    · simp [hkk, heq.mpr hkk]
    · have hmm : m' ≠ m := fun hmm => hkk (heq.mp hmm)
      simp [hkk, hmm]

/-- The list of `J` consists of messages accepted on `c`, and each of them is on it exactly once if
and only if every message is broadcast in order: before the history is enqueued to `J` if it is in
the snapshot that `J` is sent, and after that if it is not. -/
theorem transcript_exact (hrun : SwitchAmongChat J c s₀ s₁ s es)
    (shown : List (ChatMessagePayload Bytes)) :
    List.Forall₂ (IsEntry (s.hub.chatHistory c)) (transcript J c shown s₀.hub s.hub)
        s.history.copy ∧
      ((∀ k < (s.hub.chatHistory c).length, s.history.copy.count k = 1) ↔
        Guarded (serverStep (chatObserver J c)) (ToldInOrder J c) s₁ es) ∧
      ((s.hub.chatHistory c).Nodup →
        ((∀ m ∈ s.hub.chatHistory c, (transcript J c shown s₀.hub s.hub).count m = 1) ↔
          Guarded (serverStep (chatObserver J c)) (ToldInOrder J c) s₁ es)) := by
  obtain ⟨hrest, hbegun, ⟨d, p, choices, hdef, hok, hc, hallowed, hJ, hstart⟩, hrun, hchats, hdone,
    hfew⟩ := hrun
  let drawer : ChatDrawer := ⟨c, shown⟩
  have hinit : s₁.history = { entries := (s₀.hub.chatHistory c).length } ∧
      Transcribing J c d s₀.hub drawer s₁ :=
    Transcribing.init hrest hbegun hdef hok hc hallowed hJ hstart
  obtain ⟨hhistory, hinit⟩ := hinit
  -- a history that is not full at the end has never been trimmed
  have hguard := (hrun.guarded_of_final few_before hfew).2.and_forall hchats
  have hfinal := hrun.invariant_of_guarded (I := Transcribing J c d s₀.hub drawer)
    (fun _ _ t hs hg h => (hs.step rfl hg.1 h (hg.2 t h)).2) hguard hinit
  have hiff := hrun.final_iff_guarded (I := Transcribing J c d s₀.hub drawer)
    (Q := fun s => CatchUp.Right s.history) (P := ToldInOrder J c) hguard
    (fun _ _ t hs hg h => (hs.step rfl hg.1 h (hg.2 t h)).2)
    (fun _ _ t hs hg h => right_of_tracks hs.recorded.inv (hs.step rfl hg.1 h (hg.2 t h)).1) hinit
  -- and with nothing pending at the end, a right copy is one that holds each entry once
  obtain ⟨hinstalled, hnone⟩ := hfinal.settled hdone
  have hright : CatchUp.Right s₁.history := hhistory ▸ CatchUp.right_init _
  have hnumbers : (∀ k < (s.hub.chatHistory c).length, s.history.copy.count k = 1) ↔
      Guarded (serverStep (chatObserver J c)) (ToldInOrder J c) s₁ es := by
    rw [← hfinal.recorded.entries, ← CatchUp.right_iff hinstalled hnone, hiff]
    exact and_iff_right hright
  have hlist : List.Forall₂ (IsEntry (s.hub.chatHistory c)) (transcript J c shown s₀.hub s.hub)
      s.history.copy := by
    obtain ⟨sent, hsent, hlist⟩ := hfinal.recorded.list
    unfold transcript
    rw [hsent, List.drop_left]
    exact hlist hinstalled
  refine ⟨hlist, hnumbers, fun hnodup => ?_⟩
  rw [← hnumbers]
  constructor
  · intro hm k hk
    have hentry : IsEntry (s.hub.chatHistory c) _ k := List.getElem?_eq_getElem hk
    exact (count_of_entries hnodup hlist hentry).symm.trans (hm _ (List.getElem_mem hk))
  · intro hk m hm
    obtain ⟨k, hlt, heq⟩ := List.getElem_of_mem hm
    have hentry : IsEntry (s.hub.chatHistory c) m k := by
      rw [IsEntry, List.getElem?_eq_getElem hlt, heq]
    exact (count_of_entries hnodup hlist hentry).trans (hk k hlt)

end Switched

/-- Units 0 and 1 have registered, and unit 0 has switched to channel 2. -/
def meeting : ChatServer where
  pool := ⟨(Hub.after (Hub.switchChannel 0 2 "") (Hub.after (Hub.registerClient 1 0)
    (Hub.after (Hub.registerClient 0 0) (newHub defaultConfig none false sampleClients 0))),
    { entries := 0 }), fun _ => .ret ()⟩
  phase := fun _ => .live

def joins : ServerEvent := .serve (.signal 1 (.joinChannel { value := { channelID := 2 } }) {})

def writes (text : String) : ServerEvent := .serve (.signal 0 (.chatMessage
  { value := { channelID := 0, senderID := "", callsign := "", text := text } }) {})

def calls (x : ClientRef) (n : ℕ) : List ServerEvent := List.replicate n (.advance (.client x))

/-- Both units are done, and the history of channel 2 is not full. -/
abbrev AtRest (s : ChatServer) : Prop :=
  (∀ i ∈ [Thread.client 0, .client 1], s.pool.Idle i) ∧ (s.hub.chatHistory 2).length < 30

theorem switchAmongChat_of_meeting {es : List ServerEvent} {s : ChatServer}
    (hrun : (joins :: es).foldlM (serverStep (chatObserver 1 2)) meeting = some s)
    (hchats : ∀ e ∈ es, e.ChatsOn 1 2 meeting.hub)
    (hmoves : ∀ e ∈ joins :: es, ∀ i ∈ e.thread, i ∈ [Thread.client 0, .client 1])
    (hdone : AtRest s) : ∃ s₁, SwitchAmongChat 1 2 meeting s₁ s es := by
  have hall := (run_iff_foldlM _ _ _).mpr hrun
  have hrest : ∀ i, meeting.pool.Idle i := fun _ => rfl
  obtain ⟨s₁, hstart, hes⟩ := Run.cons_iff.mp hall
  obtain ⟨d, hdef, hopen⟩ : ∃ d ∈ meeting.hub.definitionOf 2, d.isPrivate = false := by
    decide +kernel
  have hallowed : ¬ (d.isPrivate = true ∧ d.password ≠ "") := by
    rw [hopen]
    exact fun h => Bool.false_ne_true h.1
  refine ⟨s₁, hrest, ?_, ⟨d, _, _, hdef, rfl, rfl, hallowed, by decide +kernel, hstart⟩, hes,
    hchats, idle_of_members [.client 0, .client 1] hall hmoves (fun i _ => hrest i) hdone.1,
    hdone.2⟩
  have hnone : meeting.hub.chatHistory 2 = [] := by decide +kernel
  rw [hnone]
  rfl

def hello : ChatMessagePayload Bytes where
  id := "msg-0-0"
  channelID := 2
  senderID := "unit1"
  callsign := "PATROL-01"
  text := "hello".toUTF8.toList

/-- Unit 0 appends before unit 1 looks up the history, and broadcasts after it has been sent. -/
def toldTwice : List ServerEvent :=
  calls 1 15 ++ [writes "hello"] ++ calls 0 4 ++ calls 1 2 ++ calls 0 1

/-- Unit 0 does both between the two. -/
def wipedOut : List ServerEvent := calls 1 16 ++ [writes "hello"] ++ calls 0 5 ++ calls 1 1

theorem transcript_exact_fails :
    (∃ s₁ s, SwitchAmongChat 1 2 meeting s₁ s toldTwice ∧ s.hub.chatHistory 2 = [hello] ∧
      transcript 1 2 [] meeting.hub s.hub = [hello, hello]) ∧
    ∃ s₁ s, SwitchAmongChat 1 2 meeting s₁ s wipedOut ∧ s.hub.chatHistory 2 = [hello] ∧
      transcript 1 2 [] meeting.hub s.hub = [] := by
  constructor
  · obtain ⟨s, hs, hdone, hlists⟩ :
        ∃ s ∈ (joins :: toldTwice).foldlM (serverStep (chatObserver 1 2)) meeting, AtRest s ∧
          s.hub.chatHistory 2 = [hello] ∧
            transcript 1 2 [] meeting.hub s.hub = [hello, hello] := by decide +kernel
    obtain ⟨s₁, hswitch⟩ := switchAmongChat_of_meeting hs (by decide +kernel) (by decide) hdone
    exact ⟨s₁, s, hswitch, hlists⟩
  · obtain ⟨s, hs, hdone, hlists⟩ :
        ∃ s ∈ (joins :: wipedOut).foldlM (serverStep (chatObserver 1 2)) meeting, AtRest s ∧
          s.hub.chatHistory 2 = [hello] ∧
            transcript 1 2 [] meeting.hub s.hub = [] := by decide +kernel
    obtain ⟨s₁, hswitch⟩ := switchAmongChat_of_meeting hs (by decide +kernel) (by decide) hdone
    exact ⟨s₁, s, hswitch, hlists⟩

/-- A message is written before the switch and another after it. -/
def inOrder : List ServerEvent :=
  [writes "first"] ++ calls 0 5 ++ calls 1 17 ++ [writes "second"] ++ calls 0 5

theorem transcript_exact_in_order :
    ∃ s₁ s, SwitchAmongChat 1 2 meeting s₁ s inOrder ∧ (s.hub.chatHistory 2).length = 2 ∧
      Guarded (serverStep (chatObserver 1 2)) (ToldInOrder 1 2) s₁ inOrder ∧
      ∀ m ∈ s.hub.chatHistory 2, (transcript 1 2 [] meeting.hub s.hub).count m = 1 := by
  obtain ⟨s, hs, hdone, hlength, hnodup, hcounts⟩ :
      ∃ s ∈ (joins :: inOrder).foldlM (serverStep (chatObserver 1 2)) meeting, AtRest s ∧
        (s.hub.chatHistory 2).length = 2 ∧ (s.hub.chatHistory 2).Nodup ∧
          ∀ k < (s.hub.chatHistory 2).length, s.history.copy.count k = 1 := by decide +kernel
  obtain ⟨s₁, hswitch⟩ := switchAmongChat_of_meeting hs (by decide +kernel) (by decide) hdone
  obtain ⟨_, hnumbers, hexact⟩ := transcript_exact hswitch []
  have hguard := hnumbers.mp hcounts
  exact ⟨s₁, s, hswitch, hlength, hguard, (hexact hnodup).mpr hguard⟩

end TwoWayRadio

import TwoWayRadio.HubDeliveries

/-! What the clients have heard about the floors once all handlers have finished. -/
namespace TwoWayRadio
open Interleaving Transition

/-- The channel that a call's message is about, in a feed. -/
def HubOp.tells (feed : Feed) (op : HubOp) : Option ChannelID :=
  op.message.bind (Signal.about feed)

theorem HubOp.broadcasts_of_looksAt {op : HubOp} {c : ChannelID} (hop : op.looksAt = some c) :
    op.broadcasts = false := by
  cases op <;> first | rfl | cases hop

/-- `announced` is the epoch of the floor that was broadcast last on each feed, and `joined` how
much had been delivered when a client last came to be reached by a feed. -/
structure ListenerHistory where
  floors : FloorHistory
  announced : Feed → ChannelID → ℕ
  joined : Feed → ClientRef → ChannelID → ℕ

namespace ListenerHistory

def init : ListenerHistory where
  floors := FloorHistory.init
  announced := fun _ _ => 0
  joined := fun _ _ _ => 0

def sees (i : Thread) (op : HubOp) (r : op.Res) (h : Hub) (g : ListenerHistory) :
    ListenerHistory where
  floors := g.floors.sees i op r h
  announced := fun feed c =>
    if op.broadcasts = true ∧ op.tells feed = some c then g.floors.since i else g.announced feed c
  joined := fun feed x c =>
    if op.joins feed x c = true then h.outbox.length else g.joined feed x c

end ListenerHistory

def listenerObserver : Observer ListenerHistory where
  starts := fun r g => { g with floors := g.floors.starts r }
  sees := ListenerHistory.sees

theorem listenerObserver_tracks : listenerObserver.Tracks ListenerHistory.floors where
  starts := fun _ _ => rfl
  sees := fun _ _ _ _ _ => rfl

/-- What every client that a feed reaches has heard last since it joined is true of the floor. -/
def ListenersAgree (s : Server ListenerHistory) : Prop :=
  ∀ feed x c msg, Feed.Reaches feed s.hub x c →
    lastHeard feed x c (s.hub.outbox.drop (s.history.joined feed x c)) = some msg →
    msg.Shows ((s.hub.holder c).map s.hub.heap)

/-- Floors are announced in turn: no message about one is sent after a broadcast about a later
epoch of it. -/
def ToldInTurn (s : Server ListenerHistory) (e : ServerEvent) : Prop :=
  ∀ i ∈ e.thread, e = .advance i → ∀ op ∈ (s.pool.task i).nextCall, ∀ feed,
    ∀ c ∈ op.tells feed, s.history.announced feed c ≤ s.history.floors.since i

instance (s : Server ListenerHistory) (e : ServerEvent) : Decidable (ToldInTurn s e) :=
  inferInstanceAs (Decidable (∀ i ∈ e.thread, e = .advance i → ∀ op ∈ (s.pool.task i).nextCall,
    ∀ feed, ∀ c ∈ op.tells feed, s.history.announced feed c ≤ s.history.floors.since i))

namespace Stance

/-- The channel whose floor a handler has still to announce on a feed. -/
def toTell : Feed → Stance → Option ChannelID
  | _, preempting c _ _ | _, notifying c _ _ | _, granted c _ | _, confirming c _
  | _, talking c _ | _, released c _ | _, saved c _ _ | _, expired c _ | _, timingOut c _
  | _, quiet c _ | _, stopping c _ | .activity, talked c _ | .activity, stopped c _ => some c
  | _, _ => none

variable {heap : Clients} {i : Thread} {s : Stance} {op : HubOp} {h : Hub} {feed : Feed}
  {c : ChannelID}

variable {msg : Signal}

/-- A broadcast to everyone is about the activity of a channel, and says what its handler
believes. -/
theorem broadcastAll_believed (hquiet : ¬ (!msg.announcesFloor) = true)
    (hexp : s.expects (HubOp.answersNames heap) i (.broadcastAll msg))
    (habout : msg.about feed = some c) :
    feed = .activity ∧ s.channel = some c ∧ ∀ ho, s.Believes ho → msg.Shows (ho.map heap) := by
  have hactivity {ch : ChannelID} (hlistening : msg.about .listening = none)
      (hact : msg.about .activity = some ch) : feed = .activity ∧ ch = c := by
    cases feed with
    | activity => exact ⟨rfl, Option.some.inj (hact.symm.trans habout)⟩
    | listening =>
      rw [hlistening] at habout
      cases habout
  cases s with
  | talked c' x =>
    obtain ⟨f, hf, rfl⟩ := hexp
    obtain ⟨rfl, rfl⟩ := hactivity rfl rfl
    refine ⟨rfl, rfl, fun ho hho => ?_⟩
    rw [show ho = some x from hho]
    exact ⟨rfl, hf.2⟩
  | stopped c' x =>
    obtain rfl := hexp
    obtain ⟨rfl, rfl⟩ := hactivity rfl rfl
    refine ⟨rfl, rfl, fun ho hho => ?_⟩
    rw [show ho = none from hho]
    rfl
  | fresh => exact absurd hexp hquiet
  | _ => exact hexp.elim

/-- A broadcast on a channel is about who is heard there, and says what its handler believes. -/
theorem broadcastSignal_believed {ch : ChannelID} (hquiet : ¬ (!msg.announcesFloor) = true)
    (hexp : s.expects (HubOp.answersNames heap) i (.broadcastSignal ch msg))
    (habout : msg.about feed = some c) :
    feed = .listening ∧ ch = c ∧ s.channel = some c ∧
      ∀ ho, s.Believes ho → msg.Shows (ho.map heap) := by
  have hlistening (hactivity : msg.about .activity = none)
      (hlisten : msg.about .listening = some ch) : feed = .listening ∧ ch = c := by
    cases feed with
    | activity =>
      rw [hactivity] at habout
      cases habout
    | listening => exact ⟨rfl, Option.some.inj (hlisten.symm.trans habout)⟩
  cases s with
  | talking c' x =>
    obtain ⟨rfl, f, hf, rfl⟩ := hexp
    obtain ⟨rfl, rfl⟩ := hlistening rfl rfl
    refine ⟨rfl, rfl, rfl, fun ho hho => ?_⟩
    rw [show ho = some x from hho]
    exact hf
  | saved c' x r =>
    obtain ⟨rfl, rfl⟩ := hexp
    obtain ⟨rfl, rfl⟩ := hlistening rfl rfl
    refine ⟨rfl, rfl, rfl, fun ho hho => ?_⟩
    rw [show ho = none from hho]
    rfl
  | quiet c' x =>
    obtain ⟨rfl, rfl⟩ := hexp
    obtain ⟨rfl, rfl⟩ := hlistening rfl rfl
    refine ⟨rfl, rfl, rfl, fun ho hho => ?_⟩
    rw [show ho = none from hho]
    rfl
  | stopping c' x =>
    obtain ⟨rfl, f, hf, rfl⟩ := hexp
    obtain ⟨rfl, rfl⟩ := hlistening rfl rfl
    refine ⟨rfl, rfl, rfl, fun ho hho => ?_⟩
    rw [show ho = none from hho]
    rfl
  | fresh => exact absurd hexp hquiet
  | _ => exact hexp.elim

/-- What a client is told of a floor on its own is that it is idle, as its handler has seen. -/
theorem sendJSON_believed {y : ClientRef} (hquiet : ¬ (!msg.announcesFloor) = true)
    (hexp : s.expects (HubOp.answersNames heap) i (.sendJSON y msg))
    (habout : msg.about feed = some c) :
    s.channel = some c ∧ ∀ ho, s.Believes ho → msg.Shows (ho.map heap) := by
  cases s with
  | timingOut c' x =>
    obtain ⟨rfl, rfl⟩ := hexp
    cases feed <;> cases habout
  | shown c' isBusy =>
    obtain ⟨_, speaker, rfl⟩ := hexp
    cases feed with
    | activity => cases habout
    | listening =>
      cases isBusy with
      | true => cases habout
      | false =>
        obtain rfl := Option.some.inj habout
        refine ⟨rfl, fun ho hho => ?_⟩
        cases ho with
        | none => rfl
        | some y => cases hho
  | fresh => exact absurd hexp hquiet
  | _ => exact hexp.elim

/-- The answers to a press of the key are about no feed. -/
theorem sendPriorityJSON_about {y : ClientRef} (hquiet : ¬ (!msg.announcesFloor) = true)
    (hexp : s.expects (HubOp.answersNames heap) i (.sendPriorityJSON y msg)) :
    msg.about feed = none := by
  cases s with
  | refused c' x =>
    obtain ⟨rfl, reason, speaker, rfl⟩ := hexp
    cases feed <;> rfl
  | notifying c' x z =>
    obtain ⟨rfl, f, _, rfl⟩ := hexp
    cases feed <;> rfl
  | confirming c' x =>
    obtain ⟨rfl, f, _, rfl⟩ := hexp
    cases feed <;> rfl
  | fresh => exact absurd hexp hquiet
  | _ => exact hexp.elim

/-- A message about a floor says what its sender believes, and a broadcast reaches everyone that
the feed does. -/
theorem tells_believed
    (hok : op.background = true ∨ s.expects (HubOp.answersNames heap) i op)
    (hm : op.message = some msg) (habout : msg.about feed = some c) :
    s.channel = some c ∧ (∀ ho, s.Believes ho → msg.Shows (ho.map heap)) ∧
      (op.broadcasts = true → ∀ h x, feed.Reaches h x c → x ∈ op.receivers h) := by
  have hquiet : ¬ (!msg.announcesFloor) = true := by
    rw [Signal.announcesFloor_of_about habout]
    exact Bool.false_ne_true
  -- only four calls carry a signal, and an announcement has to be one its handler expects
  cases op with
  | broadcastAll msg' =>
    obtain rfl := Option.some.inj hm
    obtain ⟨rfl, hch, hshows⟩ := broadcastAll_believed hquiet (hok.resolve_left hquiet) habout
    exact ⟨hch, hshows, fun _ h y hy => (AList.mem_keys).mp hy⟩
  | broadcastSignal ch msg' =>
    obtain rfl := Option.some.inj hm
    obtain ⟨rfl, rfl, hch, hshows⟩ :=
      broadcastSignal_believed hquiet (hok.resolve_left hquiet) habout
    refine ⟨hch, hshows, ?_⟩
    rintro - h x ⟨chan, hchan, hx⟩
    show x ∈ h.subscribersOf ch
    rw [Hub.subscribersOf, Hub.readChannel, hchan]
    exact (AList.mem_keys).mp hx
  | sendJSON y msg' =>
    obtain rfl := Option.some.inj hm
    obtain ⟨hch, hshows⟩ := sendJSON_believed hquiet (hok.resolve_left hquiet) habout
    exact ⟨hch, hshows, fun hb => absurd hb Bool.false_ne_true⟩
  | sendPriorityJSON y msg' =>
    obtain rfl := Option.some.inj hm
    rw [sendPriorityJSON_about hquiet (hok.resolve_left hquiet)] at habout
    cases habout
  | _ => cases hm

/-- An announcement that is due stays due until it is made. -/
theorem toTell_next {can : (op : HubOp) → op.Res → Prop}
    (hok : op.background = true ∨ s.expects can i op)
    (hop : op.looksAt = none) (r : op.Res) (hs : s.toTell feed = some c) :
    (s.next op r).toTell feed = some c ∨ (op.broadcasts = true ∧ op.tells feed = some c) := by
  have htold : ∀ {msg : Signal} {moved stays : Stance}, stays.toTell feed = some c →
      (msg.announcesFloor = true → moved.toTell feed = some c ∨
        (op.broadcasts = true ∧ op.tells feed = some c)) →
      (told msg moved stays).toTell feed = some c ∨
        (op.broadcasts = true ∧ op.tells feed = some c) := by
    intro msg moved stays hst hmoved
    exact told_rule (fun s => s.toTell feed = some c ∨
      (op.broadcasts = true ∧ op.tells feed = some c)) hmoved (Or.inl hst)
  revert hs
  fun_cases next s op r <;> intro hs <;> first
    | exact absurd hop (Option.some_ne_none _)
    | (cases feed <;> cases hs; done)
    | exact Or.inl hs
    | (refine htold hs fun _ => ?_; cases feed <;> exact Or.inl hs)
    | skip
  -- the four broadcasts that a handler moves on with
  all_goals
    refine htold hs fun hann => ?_
    rcases hok with hback | hexp
    · exact absurd hback (by simp [HubOp.background, hann])
  · obtain ⟨rfl, f, _, rfl⟩ := hexp
    cases feed with
    | activity => exact Or.inl hs
    | listening => exact Or.inr ⟨rfl, hs⟩
  · obtain ⟨f, _, rfl⟩ := hexp
    cases feed with
    | activity => exact Or.inr ⟨rfl, hs⟩
    | listening => cases hs
  · obtain ⟨rfl, f, _, rfl⟩ := hexp
    cases feed with
    | activity => exact Or.inl hs
    | listening => exact Or.inr ⟨rfl, hs⟩
  · obtain rfl := hexp
    cases feed with
    | activity => exact Or.inr ⟨rfl, hs⟩
    | listening => cases hs

/-- Whoever changes a floor has to announce it. -/
theorem toTell_looked (feed : Feed) {can : (op : HubOp) → op.Res → Prop} (hb : h.BusyAgrees)
    (hok : op.background = true ∨ s.expects can i op) (hop : op.looksAt = some c) :
    s.toTell feed = none ∧ ((op.run h).2.holder c ≠ h.holder c →
      (s.next op (op.run h).1).toTell feed = some c) := by
  have hquiet : ∀ x, (quiet c x).toTell feed = some c := fun x => by cases feed <;> rfl
  cases looks hok hop with
  | removes x =>
    refine ⟨by cases feed <;> rfl, fun hchanged => ?_⟩
    rcases HubOp.removeSubscriber_run h c x with
      ⟨_, hr, _⟩ | ⟨_, _, hsame⟩
    · rw [hr]
      exact hquiet x
    · exact absurd hsame hchanged
  | requests x _ =>
    refine ⟨by cases feed <;> rfl, fun hchanged => ?_⟩
    have hreq := HubOp.requestFloor_run c x hb
    generalize h.holder c = before at hreq hchanged
    generalize ((HubOp.requestFloor c x).run h).1 = reply at hreq ⊢
    generalize ((HubOp.requestFloor c x).run h).2.holder c = after at hreq hchanged
    -- the holder changes with a fresh grant and with a preemption
    cases hreq with
    | absent => exact absurd rfl hchanged
    | free => cases feed <;> rfl
    | held => exact absurd rfl hchanged
    | preempts y hne hp => cases feed <;> rfl
    | denied y hne hp => exact absurd rfl hchanged
  | releases x _ =>
    refine ⟨by cases feed <;> rfl, fun hchanged => ?_⟩
    rcases HubOp.releaseFloor_run h c x with
      ⟨_, hr, _⟩ | ⟨_, _, hsame⟩
    · rw [hr]
      cases feed <;> rfl
    · exact absurd hsame hchanged
  | checks x => exact ⟨by cases feed <;> rfl, fun hchanged => absurd rfl hchanged⟩
  | reads x => exact ⟨by cases feed <;> rfl, fun hchanged => absurd rfl hchanged⟩
  | expires timer =>
    refine ⟨by cases feed <;> rfl, fun hchanged => ?_⟩
    rcases HubOp.handleTOT_run h c timer with ⟨_, hsame⟩ | ⟨y, hr, _, _⟩
    · exact absurd hsame hchanged
    · rw [hr]
      cases feed <;> rfl

end Stance

/-- A floor has been announced since it changed last or a handler still has to, and what has been
heard of it last was true in some epoch since the last broadcast. -/
structure Told (heap : Clients) (h : Hub) (g : ListenerHistory) : Prop where
  due : ∀ feed c, g.announced feed c = g.floors.epoch c ∨
    ∃ i, (g.floors.stance i).toTell feed = some c ∧ g.floors.since i = g.floors.epoch c
  joined_le : ∀ feed x c, g.joined feed x c ≤ h.outbox.length
  heard : ∀ feed x c msg, Feed.Reaches feed h x c →
    lastHeard feed x c (h.outbox.drop (g.joined feed x c)) = some msg →
    ∃ e, g.announced feed c ≤ e ∧ e ≤ g.floors.epoch c ∧
      msg.Shows ((g.floors.holderAt c e).map heap)

namespace Told

variable {heap : Clients} {h : Hub} {g : ListenerHistory} {task : Thread → HubProg Unit}
  {i : Thread} {op : HubOp}

theorem due_call (ht : Told heap h g)
    (hs : FloorHistory.Sound (HubOp.answersNames heap) h task g.floors)
    (hok : op.background = true ∨ (g.floors.stance i).expects (HubOp.answersNames heap) i op)
    (hturn : ∀ feed c, op.tells feed = some c → g.announced feed c ≤ g.floors.since i)
    (feed : Feed) (c : ChannelID) :
    (g.sees i op (op.run h).1 h).announced feed c = g.floors.epochAfter op h c ∨
      ∃ j, ((g.floors.sees i op (op.run h).1 h).stance j).toTell feed = some c ∧
        (g.floors.sees i op (op.run h).1 h).since j = g.floors.epochAfter op h c := by
  have hother : ∀ {j}, j ≠ i → (g.floors.stance j).toTell feed = some c →
      ((g.floors.sees i op (op.run h).1 h).stance j).toTell feed = some c := by
    intro j hj hdue
    rwa [FloorHistory.sees_stance_of_ne hj]
  cases hop : op.looksAt with
  | some c' =>
    obtain ⟨hnone, hchange⟩ := Stance.toTell_looked feed hs.busyAgrees hok hop
    have hsame : (g.sees i op (op.run h).1 h).announced feed c = g.announced feed c :=
      if_neg fun hb => by rw [HubOp.broadcasts_of_looksAt hop] at hb; cases hb.1
    rw [hsame]
    rcases FloorHistory.epochAfter_cases op h g.floors c with ⟨hep, _⟩ | ⟨_, hchanged⟩
    · rw [hep]
      refine (ht.due feed c).imp id fun ⟨j, hdue, hnow⟩ => ?_
      have hj : j ≠ i := fun hj => by rw [hj, hnone] at hdue; cases hdue
      exact ⟨j, hother hj hdue, by rwa [FloorHistory.sees_since_of_ne hj]⟩
    · -- the floor that changed is the one looked at, and the caller has to announce it
      have hcc : c = c' := by
        by_contra hne
        exact hchanged (HubOp.holder_run_of_looksAt hop hne)
      subst hcc
      refine Or.inr ⟨i, ?_, FloorHistory.sees_since_looked i hop _⟩
      rw [FloorHistory.sees_stance_self]
      exact hchange hchanged
  | none =>
    have hep : g.floors.epochAfter op h c = g.floors.epoch c :=
      if_pos (HubOp.holder_run_of_unlooked hop h c)
    rw [hep]
    by_cases hann : op.broadcasts = true ∧ op.tells feed = some c
    · have hnew : (g.sees i op (op.run h).1 h).announced feed c = g.floors.since i := if_pos hann
      rw [hnew]
      obtain ⟨msg, hm, habout⟩ := Option.bind_eq_some_iff.mp hann.2
      -- the announcement counts for the epoch its handler saw last, and those due stay due
      have hsince := hs.since_le i c (Stance.tells_believed hok hm habout).1
      have hle := hturn feed c hann.2
      rcases ht.due feed c with hdone | ⟨j, hdue, hnow⟩
      · exact Or.inl (by omega)
      · by_cases hj : j = i
        · exact Or.inl (hj ▸ hnow)
        · exact Or.inr ⟨j, hother hj hdue, by rwa [FloorHistory.sees_since_of_ne hj]⟩
    · have hsame : (g.sees i op (op.run h).1 h).announced feed c = g.announced feed c :=
        if_neg hann
      rw [hsame]
      refine (ht.due feed c).imp id fun ⟨j, hdue, hnow⟩ => ?_
      by_cases hj : j = i
      · rw [hj] at hdue hnow
        refine ⟨i, ?_, by rwa [FloorHistory.sees_since_unlooked i hop]⟩
        rw [FloorHistory.sees_stance_self]
        -- a handler drops what it has to tell by telling it, and this call told nothing
        rcases Stance.toTell_next hok hop (op.run h).1 hdue with hstill | htold
        · exact hstill
        · exact absurd htold hann
      · exact ⟨j, hother hj hdue, by rwa [FloorHistory.sees_since_of_ne hj]⟩

/-- A handler makes its next call. -/
theorem call (ht : Told heap h g)
    (hs : FloorHistory.Sound (HubOp.answersNames heap) h task g.floors)
    (hok : op.background = true ∨ (g.floors.stance i).expects (HubOp.answersNames heap) i op)
    (hturn : ∀ feed c, op.tells feed = some c → g.announced feed c ≤ g.floors.since i) :
    Told heap (op.run h).2 (g.sees i op (op.run h).1 h) := by
  refine ⟨due_call ht hs hok hturn, fun feed x c => ?_, fun feed x c msg hr hlast => ?_⟩
  · show (if op.joins feed x c = true then h.outbox.length else g.joined feed x c) ≤ _
    have hlen := HubOp.length_outbox_run op h
    split_ifs
    · exact hlen
    · exact (ht.joined_le feed x c).trans hlen
  -- a call leaves the holders of the epochs up to now as they were
  have hgrows := FloorHistory.epoch_le_epochAfter op h g.floors c
  have hpast : ∀ {e}, e ≤ g.floors.epoch c →
      (g.floors.sees i op (op.run h).1 h).holderAt c e = g.floors.holderAt c e :=
    fun he => FloorHistory.sees_holderAt_past i _ (hs.current c) he
  change lastHeard feed x c ((op.run h).2.outbox.drop
    (if op.joins feed x c = true then h.outbox.length else g.joined feed x c)) = some msg at hlast
  by_cases hj : op.joins feed x c = true
  · rw [if_pos hj, HubOp.lastHeard_run_of_not_receives (fun msg' hm => ?_) le_rfl,
      List.drop_length] at hlast
    · -- `x` has only just joined, so nothing has been sent to it since
      cases hlast
    · rw [HubOp.message_of_joins hj] at hm
      cases hm
  rw [if_neg hj] at hlast
  have hreached := HubOp.reaches_of_run hr (Bool.eq_false_iff.mpr hj)
  have hn := ht.joined_le feed x c
  by_cases hrec : ∃ msg', op.message = some msg' ∧ msg'.about feed = some c ∧ x ∈ op.receivers h
  · -- the message just sent, from the epoch its sender saw last
    obtain ⟨msg', hm, habout, hx⟩ := hrec
    rw [HubOp.lastHeard_run_of_receives hm habout hx hn] at hlast
    obtain rfl := Option.some.inj hlast
    have htells : op.tells feed = some c := Option.bind_eq_some_iff.mpr ⟨msg', hm, habout⟩
    obtain ⟨hch, hshows, _⟩ := Stance.tells_believed hok hm habout
    have hsince := hs.since_le i c hch
    refine ⟨g.floors.since i, ?_, hsince.trans hgrows, ?_⟩
    · show (if op.broadcasts = true ∧ op.tells feed = some c then _ else _) ≤ _
      split_ifs
      · exact le_rfl
      · exact hturn feed c htells
    · show msg'.Shows (((g.floors.sees i op (op.run h).1 h).holderAt c _).map heap)
      rw [hpast hsince]
      exact hshows _ (hs.believes i c hch)
  · -- what was heard last is heard last still, and no broadcast of this call missed `x`
    rw [HubOp.lastHeard_run_of_not_receives
      (fun msg' hm habout hx => hrec ⟨msg', hm, habout, hx⟩) hn] at hlast
    obtain ⟨e, hlo, hhi, hshows⟩ := ht.heard feed x c msg hreached hlast
    refine ⟨e, ?_, hhi.trans hgrows, ?_⟩
    · show (if op.broadcasts = true ∧ op.tells feed = some c then _ else _) ≤ e
      rw [if_neg]
      · exact hlo
      · rintro ⟨hb, htells⟩
        obtain ⟨msg', hm, habout⟩ := Option.bind_eq_some_iff.mp htells
        exact hrec ⟨msg', hm, habout, (Stance.tells_believed hok hm habout).2.2 hb h x hreached⟩
    · show msg.Shows (((g.floors.sees i op (op.run h).1 h).holderAt c e).map heap)
      rw [hpast hhi]
      exact hshows

/-- A handler of a thread that has nothing to announce starts. -/
theorem starts {r : Request} (ht : Told heap h g)
    (hr : ∀ feed, (g.floors.stance r.thread).toTell feed = none) :
    Told heap h { g with floors := g.floors.starts r } := by
  refine ⟨fun feed c => ?_, ht.joined_le, ht.heard⟩
  refine (ht.due feed c).imp id fun ⟨j, hdue, hnow⟩ => ⟨j, ?_, hnow⟩
  have hj : j ≠ r.thread := fun hj => by rw [hj, hr] at hdue; cases hdue
  have hother : (g.floors.starts r).stance j = g.floors.stance j := Function.update_of_ne hj ..
  rw [hother]
  exact hdue

/-- A change of the hub that sends nothing and reaches nobody new. -/
theorem environment {h' : Hub} (ht : Told heap h g) (hout : h'.outbox = h.outbox)
    (hreach : ∀ feed x c, Feed.Reaches feed h' x c → feed.Reaches h x c) : Told heap h' g := by
  refine ⟨ht.due, ?_, ?_⟩ <;> rw [hout]
  · exact ht.joined_le
  · exact fun feed x c msg hr => ht.heard feed x c msg (hreach feed x c hr)

end Told

/-- What a message shows depends on the speaker's ID and callsign alone. -/
theorem Signal.Shows.congr {a b : Clients} (hab : a.SameNames b) {msg : Signal}
    {ho : Option ClientRef} (h : msg.Shows (ho.map b)) : msg.Shows (ho.map a) := by
  cases ho with
  | none => exact h
  | some x =>
    cases msg with
    | channelActivity ch isBusy callsign => exact ⟨h.1, h.2.trans (hab x).2.symm⟩
    | userTalking p => exact ⟨h.1.trans (hab x).1.symm, h.2.trans (hab x).2.symm⟩
    | userStopped p => cases h
    | floorStatus p => cases h
    | _ => trivial

/-- The invariant of the runs in which floors are announced in turn. -/
structure Listening (heap : Clients) (s : Server ListenerHistory) : Prop where
  named : FloorHistory.Named heap s.hub s.pool.task s.history.floors
  told : Told heap s.hub s.history

theorem Listening.fresh_of_idle {heap : Clients} {s : Server ListenerHistory} {i : Thread}
    (hs : Listening heap s) (hi : s.pool.Idle i) : s.history.floors.stance i = .fresh := by
  have hfollows := hs.named.sound.follows i
  rw [hi] at hfollows
  exact hfollows

theorem Listening.step {heap : Clients} {s t : Server ListenerHistory} {e : ServerEvent}
    (hs : Listening heap s) (he : e.renames = false) (hturn : ToldInTurn s e)
    (h : serverStep listenerObserver s e = some t) : Listening heap t := by
  refine ⟨FloorHistory.named_step listenerObserver_tracks he hs.named h, ?_⟩
  cases e with
  | serve r =>
    obtain ⟨_, hidle, _⟩ := serverStep_serve h
    obtain ⟨hhub, hstarts⟩ := serverStep_starts h
    rw [hhub, hstarts]
    refine hs.told.starts fun feed => ?_
    rw [hs.fresh_of_idle hidle]
    cases feed <;> rfl
  | advance i =>
    obtain ⟨op, k, hk, _, hhub, hhist, _⟩ := serverStep_advance h
    have hfollows := hs.named.sound.follows i
    rw [hk] at hfollows
    rw [hhub, hhist]
    refine hs.told.call hs.named.sound hfollows.1 fun feed c htells => ?_
    exact hturn i rfl rfl op (by rw [hk]; rfl) feed c htells
  | timerFires ch timer =>
    obtain ⟨hf, _, hhist, _⟩ := serverStep_timerFires h
    rw [hhist]
    refine hs.told.environment ?_ fun feed x c hr => ?_
    · obtain ⟨_, _, _, _, heq⟩ := Hub.fireTimer_eq hf
      rw [heq]
    · have he := elsewhere_fireTimer (x := x) hf
      cases feed with
      | activity => exact he.clients.mp hr
      | listening => exact (he.subscribed c).mp hr
  | tick d =>
    obtain ⟨hhub, _, hhist, _⟩ := serverStep_tick h
    rw [hhist, hhub]
    refine hs.told.environment rfl fun feed x c hr => ?_
    cases feed <;> exact hr

theorem Listening.init (cfg : Config) (recorder : Option AudioRecorder) (roipRelay : Bool)
    (heap : Clients) (now : ℤ) : Listening heap
      (Server.init (newHub cfg recorder roipRelay heap now) ListenerHistory.init) where
  named := FloorHistory.named_init ..
  told := {
    due := fun feed c => Or.inl rfl
    joined_le := fun feed x c => Nat.zero_le _
    heard := fun feed x c msg hr hlast => by cases hlast }

/-- In a run whose floors are announced in turn, all clients know who speaks when all handlers
have finished. -/
theorem listeners_agree (cfg : Config) (recorder : Option AudioRecorder) (roipRelay : Bool)
    (heap : Clients) (now : ℤ) {es : List ServerEvent} {s : Server ListenerHistory}
    (hrun : Run (serverStep listenerObserver)
      (Server.init (newHub cfg recorder roipRelay heap now) ListenerHistory.init) es s)
    (hnames : ∀ e ∈ es, e.renames = false)
    (hturn : Guarded (serverStep listenerObserver) ToldInTurn
      (Server.init (newHub cfg recorder roipRelay heap now) ListenerHistory.init) es)
    (hidle : ∀ i, s.pool.Idle i) : ListenersAgree s := by
  have hinv := hrun.invariant_of_guarded (I := Listening heap)
    (fun s e t hs hg h => hs.step hg.1 hg.2 h) (hturn.and_forall hnames)
    (Listening.init cfg recorder roipRelay heap now)
  intro feed x c msg hr hlast
  obtain ⟨e, hlo, hhi, hshows⟩ := hinv.told.heard feed x c msg hr hlast
  have hdone : s.history.announced feed c = s.history.floors.epoch c := by
    rcases hinv.told.due feed c with hdone | ⟨i, hdue, _⟩
    · exact hdone
    · rw [hinv.fresh_of_idle (hidle i)] at hdue
      cases feed <;> cases hdue
  have hnow : e = s.history.floors.epoch c := by omega
  rw [hnow, hinv.named.sound.current] at hshows
  exact hshows.congr hinv.named.names

/-- Unit 0 releases the floor, but its announcements come after those of the next grant. -/
def lateIdleRun : List ServerEvent :=
  uninterrupted (.connect 0 0) 10 ++ uninterrupted (.connect 1 0) 10 ++
    uninterrupted (.signal 0 .pttDown {}) 8 ++ uninterrupted (.signal 0 .pttUp {}) 4 ++
    uninterrupted (.signal 1 .pttDown {}) 8 ++ List.replicate 3 (.advance (.client 0))

/-- Unit 1 speaks, and both clients have been told last that the floor is idle. -/
theorem listeners_agree_fails :
    ∃ s, Run (serverStep listenerObserver)
        (Server.init (newHub defaultConfig none false sampleClients 0) ListenerHistory.init)
        lateIdleRun s ∧
      (∀ e ∈ lateIdleRun, e.renames = false) ∧ (∀ i, s.pool.Idle i) ∧ ¬ ListenersAgree s := by
  have hrun := run_get (serverStep listenerObserver)
    (Server.init (newHub defaultConfig none false sampleClients 0) ListenerHistory.init) lateIdleRun
    (by decide)
  have hidle := idle_of_members [.client 0, .client 1] hrun (by decide) (fun _ _ => rfl)
    (by decide +kernel)
  refine ⟨_, hrun, by decide, hidle, fun h => ?_⟩
  have hidle := h .activity 0 1 (.channelActivity 1 false "")
    ((AList.mem_keys).mpr (by decide)) (by decide)
  exact absurd hidle.1 Bool.false_ne_true

/-- Both units speak in turn. -/
def takingTurns : List ServerEvent :=
  uninterrupted (.connect 0 0) 10 ++ uninterrupted (.connect 1 0) 10 ++
    uninterrupted (.signal 0 .pttDown {}) 8 ++ uninterrupted (.signal 0 .pttUp {}) 7 ++
    uninterrupted (.signal 1 .pttDown {}) 8

theorem listeners_agree_takingTurns :
    ∃ s, Run (serverStep listenerObserver)
        (Server.init (newHub defaultConfig none false sampleClients 0) ListenerHistory.init)
        takingTurns s ∧ ListenersAgree s := by
  have hrun := run_get (serverStep listenerObserver)
    (Server.init (newHub defaultConfig none false sampleClients 0) ListenerHistory.init) takingTurns
    (by decide)
  have hidle := idle_of_members [.client 0, .client 1] hrun (by decide) (fun _ _ => rfl)
    (by decide +kernel)
  refine ⟨_, hrun, ?_⟩
  exact listeners_agree defaultConfig none false sampleClients 0 hrun (by decide)
    (by decide +kernel) hidle

end TwoWayRadio

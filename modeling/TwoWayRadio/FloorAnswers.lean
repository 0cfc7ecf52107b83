import TwoWayRadio.HubEffects
import TwoWayRadio.Session

/-! How the hub answers a client that stays on its channel: which floor calls its handlers make,
and which statuses are on their way to it. -/
namespace TwoWayRadio
open Interleaving

namespace Stance

/-- The press (`true`) or release whose floor call a handler has still to make. -/
def keying : Stance → List Bool
  | asking _ => [true]
  | releasing _ => [false]
  | _ => []

/-- A handler in this stance is going to send `x` this status of channel `c`. -/
def OwesStatus (c : ChannelID) (x : ClientRef) (st : FloorStatus) : Stance → Prop
  | refused ch y => st = .denied ∧ ch = c ∧ y = x
  | preempting ch y z | notifying ch y z =>
    ch = c ∧ ((st = .granted ∧ y = x) ∨ (st = .denied ∧ z = x))
  | granted ch y | confirming ch y => st = .granted ∧ ch = c ∧ y = x
  | expired ch y | timingOut ch y => st = .timeout ∧ ch = c ∧ y = x
  | _ => False

variable {can : (op : HubOp) → op.Res → Prop} {i : Thread} {s : Stance} {op : HubOp} {h : Hub}
  {c : ChannelID} {x : ClientRef} {st : FloorStatus}

/-- What a handler owes it goes on owing until it sends it. -/
theorem owesStatus_next (hok : op.background = true ∨ s.expects can i op)
    (hs : s.OwesStatus c x st) (r : op.Res) : (s.next op r).OwesStatus c x st ∨
      ∃ p, op.message = some (.floorStatus p) ∧ p.channelID = c ∧ p.status = st ∧
        x ∈ op.receivers h := by
  have hasks : s.asks = false := by cases s <;> first | rfl | exact hs.elim
  rcases hok with hback | hexp
  · rw [next_background hasks hback]
    exact Or.inl hs
  · -- the stance has to name the status; the call it expects next either sends it or comes before
    cases s with
    | refused ch y =>
      obtain ⟨rfl, rfl, rfl⟩ := hs
      cases op <;> first | exact hexp.elim | skip
      obtain ⟨rfl, reason, speaker, rfl⟩ := hexp
      exact Or.inr ⟨_, rfl, rfl, rfl, List.mem_singleton_self _⟩
    | preempting ch y z =>
      cases op <;> first | exact hexp.elim | exact Or.inl hs
    | notifying ch y z =>
      obtain ⟨rfl, hs⟩ := hs
      cases op <;> first | exact hexp.elim | skip
      obtain ⟨rfl, f, _, rfl⟩ := hexp
      rcases hs with ⟨rfl, rfl⟩ | ⟨rfl, rfl⟩
      · exact Or.inl ⟨rfl, rfl, rfl⟩
      · exact Or.inr ⟨_, rfl, rfl, rfl, List.mem_singleton_self _⟩
    | granted ch y =>
      cases op <;> first | exact hexp.elim | exact Or.inl hs
    | confirming ch y =>
      obtain ⟨rfl, rfl, rfl⟩ := hs
      cases op <;> first | exact hexp.elim | skip
      obtain ⟨rfl, f, _, rfl⟩ := hexp
      exact Or.inr ⟨_, rfl, rfl, rfl, List.mem_singleton_self _⟩
    | expired ch y =>
      cases op <;> first | exact hexp.elim | exact Or.inl hs
    | timingOut ch y =>
      obtain ⟨rfl, rfl, rfl⟩ := hs
      cases op <;> first | exact hexp.elim | skip
      obtain ⟨rfl, rfl⟩ := hexp
      exact Or.inr ⟨_, rfl, rfl, rfl, List.mem_singleton_self _⟩
    | _ => exact hs.elim

/-- Who loses the floor by the call of another is going to be told. -/
theorem owesStatus_of_lost (hb : h.BusyAgrees)
    (hok : op.background = true ∨ s.expects can i op) (hi : i ≠ .client x)
    (hheld : h.holder c = some x) (hlost : (op.run h).2.holder c ≠ some x) :
    ∃ st, st.unkeys = true ∧ (s.next op (op.run h).1).OwesStatus c x st := by
  -- only a call that looks at this floor can take it from `x`
  have hop : op.looksAt = some c := by
    cases hop : op.looksAt with
    | none =>
      rw [HubOp.holder_run_of_unlooked hop] at hlost
      exact absurd hheld hlost
    | some c' =>
      by_contra hne
      refine hlost ?_
      rw [HubOp.holder_run_of_looksAt hop fun heq => hne (by rw [heq])]
      exact hheld
  cases looks hok hop with
  | removes y =>
    rcases HubOp.removeSubscriber_run h c y with ⟨hy, _⟩ | ⟨_, _, hsame⟩
    · -- only its own handler takes a leaving client off its channel
      obtain rfl := Option.some.inj (hheld.symm.trans hy)
      exact absurd rfl hi
    · exact absurd (hsame.trans hheld) hlost
  | requests y _ =>
    have hreq := HubOp.requestFloor_run c y hb
    generalize h.holder c = before at hreq hheld
    generalize ((HubOp.requestFloor c y).run h).1 = reply at hreq ⊢
    generalize ((HubOp.requestFloor c y).run h).2.holder c = after at hreq hlost
    cases hreq with
    | absent => exact absurd hheld hlost
    | free => cases hheld
    | held => exact absurd hheld hlost
    | preempts z hne hp =>
      obtain rfl := Option.some.inj hheld
      -- who is preempted hears that the floor is denied
      exact ⟨.denied, rfl, rfl, Or.inr ⟨rfl, rfl⟩⟩
    | denied z hne hp => exact absurd hheld hlost
  | releases y _ =>
    rcases HubOp.releaseFloor_run h c y with ⟨hy, _⟩ | ⟨_, _, hsame⟩
    · obtain rfl := Option.some.inj (hheld.symm.trans hy)
      exact absurd rfl hi
    · exact absurd (hsame.trans hheld) hlost
  | checks y => exact absurd hheld hlost
  | reads y => exact absurd hheld hlost
  | expires timer =>
    rcases HubOp.handleTOT_run h c timer with ⟨_, hsame⟩ | ⟨y, hr, hy, _⟩
    · exact absurd (hsame.trans hheld) hlost
    · obtain rfl := Option.some.inj (hheld.symm.trans hy)
      rw [hr]
      exact ⟨.timeout, rfl, rfl, rfl, rfl⟩

end Stance

/-- The calls by which a client leaves its channel. -/
def HubOp.leaves : HubOp → Bool
  | removeSubscriber .. | setCurrentChannel .. => true
  | _ => false

/-- The requests by which a client can leave its channel. -/
def Request.leaves : Request → Bool
  | disconnect _ | signal _ (.joinChannel _) _ | signal _ (.createChannel _) _ => true
  | _ => false

/-- The call looks up no other client's channel. -/
def HubOp.AsksOwn (x : ClientRef) (op : HubOp) : Prop := ∀ y, op = .currentChannel y → y = x

/-- The answers of `currentChannel` while `x` stays on channel `c`. -/
def HubOp.answersChannel (x : ClientRef) (c : ChannelID) : (op : HubOp) → op.Res → Prop
  | currentChannel y, r => y = x → r = some c
  | _, _ => True

theorem HubOp.answersChannel_run {x : ClientRef} {c : ChannelID} {h : Hub}
    (hcur : (h.heap x).currentChannelID = c) (hc : h.HasChannel c) (op : HubOp) :
    op.answersChannel x c (op.run h).1 := by
  cases op with
  | currentChannel y =>
    rintro rfl
    show h.channelOf y = some c
    rw [Hub.channelOf, hcur]
    exact if_pos hc
  | _ => trivial

theorem Request.departs_eq_leaves (r : Request) : r.departs = r.leaves := by
  cases r with
  | signal x msg choices => cases msg <;> rfl
  | _ => rfl

/-- Only the requests by which a client can leave its channel take it off or tune it to another. -/
theorem stays_prog {r : Request} (hr : r.leaves = false) :
    r.prog.All fun op => op.leaves = false := by
  have hdeparts : r.departs = false := r.departs_eq_leaves.trans hr
  refine (serves_prog r).mono fun op hop => ?_
  cases op with
  | removeSubscriber ch y => exact absurd (hdeparts.symm.trans hop) Bool.false_ne_true
  | setCurrentChannel y new =>
    exact absurd (hdeparts.symm.trans (departs_of_switches hop)) Bool.false_ne_true
  | _ => rfl

section AsksOwn

variable {x : ClientRef}

theorem asksOwn_announceIdle (ch : ChannelID) (c : Client) :
    (Hub.announceIdle ch c).All (HubOp.AsksOwn x) :=
  Prog.all_then (fun _ => HubOp.noConfusion) fun _ =>
    Prog.all_then (fun _ => HubOp.noConfusion) fun _ =>
    Prog.all_perform fun _ => HubOp.noConfusion

theorem asksOwn_finishRecording (ch : ChannelID) :
    (Hub.finishRecording ch).All (HubOp.AsksOwn x) :=
  Prog.all_then (fun _ => HubOp.noConfusion) fun _ =>
    Prog.all_bind (Prog.all_ifSome fun _ => Prog.all_perform fun _ => HubOp.noConfusion)
      fun _ => trivial

theorem asksOwn_handlePTTDown : (Hub.handlePTTDown x).All (HubOp.AsksOwn x) := by
  refine Prog.all_then (fun _ h => (HubOp.currentChannel.inj h).symm) fun ch => ?_
  cases ch with
  | none => exact Prog.all_perform fun _ => HubOp.noConfusion
  | some ch =>
    refine Prog.all_then (fun _ => HubOp.noConfusion) fun reply => ?_
    show (Hub.answerRequest x ch reply).All _
    unfold Hub.answerRequest
    split_ifs
    · refine Prog.all_then (fun _ => HubOp.noConfusion) fun _ =>
        Prog.all_bind (Prog.all_ifSome fun y => ?_) fun _ =>
        Prog.all_then (fun _ => HubOp.noConfusion) fun _ =>
        Prog.all_then (fun _ => HubOp.noConfusion) fun c =>
        Prog.all_then (fun _ => HubOp.noConfusion) fun _ =>
        Prog.all_then (fun _ => HubOp.noConfusion) fun _ =>
        Prog.all_perform fun _ => HubOp.noConfusion
      exact Prog.all_then (fun _ => HubOp.noConfusion) fun _ =>
        Prog.all_bind (asksOwn_finishRecording ch) fun _ =>
        Prog.all_then (fun _ => HubOp.noConfusion) fun _ =>
        Prog.all_perform fun _ => HubOp.noConfusion
    · exact Prog.all_perform fun _ => HubOp.noConfusion

theorem asksOwn_handlePTTUp : (Hub.handlePTTUp x).All (HubOp.AsksOwn x) := by
  refine Prog.all_then (fun _ h => (HubOp.currentChannel.inj h).symm) fun ch =>
    Prog.all_ifSome fun ch => Prog.all_then (fun _ => HubOp.noConfusion) fun released =>
    Prog.all_when ?_
  refine Prog.all_bind (asksOwn_finishRecording ch) fun saved =>
    Prog.all_then (fun _ => HubOp.noConfusion) fun c => Prog.all_bind ?_ fun _ =>
    asksOwn_announceIdle ch c
  exact Prog.all_ifSome fun _ => Prog.all_perform fun _ => HubOp.noConfusion

end AsksOwn

/-- What a call of the handlers of `x` does about the floor of its channel. -/
inductive FloorCall (c : ChannelID) (x : ClientRef) (h h' : Hub) (s s' : Stance) : Prop
  | other (hkeying : s'.keying = s.keying) (hholder : h'.holder c = h.holder c)
  | granted (hkeying : s.keying = [true]) (hdone : s'.keying = []) (hholder : h'.holder c = some x)
      (howes : s'.OwesStatus c x .granted)
  | denied (hkeying : s.keying = [true]) (hdone : s'.keying = [])
      (hholder : h'.holder c ≠ some x) (howes : s'.OwesStatus c x .denied)
  | released (hkeying : s.keying = [false]) (hdone : s'.keying = [])
      (hholder : h'.holder c ≠ some x)

namespace Stance

variable {s : Stance} {op : HubOp} {h : Hub} {c : ChannelID} {x : ClientRef}

theorem keying_next (hs : s.asks = false) (r : op.Res) : (s.next op r).keying = [] := by
  have hself : s.keying = [] := by cases s <;> first | rfl | cases hs
  fun_cases next s op r <;> first
    | exact hself
    | exact absurd hs.symm Bool.false_ne_true
    | rfl
    | exact told_rule (fun s => s.keying = []) (fun _ => rfl) rfl
    | exact elim_rule (fun s => s.keying = []) rfl fun _ => rfl

/-- A handler that is not about to ask only looks at the floor of its channel. -/
theorem floorCall_aside
    (hok : op.background = true ∨ s.expects (HubOp.answersChannel x c) (.client x) op)
    (hstays : op.leaves = false) (hasks : s.asks = false) :
    FloorCall c x h (op.run h).2 s (s.next op (op.run h).1) := by
  have hself : s.keying = [] := by cases s <;> first | rfl | cases hasks
  refine .other ((keying_next hasks _).trans hself.symm) ?_
  cases hop : op.looksAt with
  | none => exact HubOp.holder_run_of_unlooked hop h c
  | some c' =>
    cases looks hok hop with
    | removes => cases hstays
    | requests => cases hasks
    | releases => cases hasks
    | checks => rfl
    | reads => rfl

/-- The reply to a request says granted exactly when the floor is the client's afterwards. -/
theorem floorCall_requests (hb : h.BusyAgrees) :
    FloorCall c x h ((HubOp.requestFloor c x).run h).2 (asking x)
      ((asking x).next (.requestFloor c x) ((HubOp.requestFloor c x).run h).1) := by
  have hreq := HubOp.requestFloor_run c x hb
  have hout : (((HubOp.requestFloor c x).run h).2.holder c = some x ∧
      ((asking x).next (.requestFloor c x)
        ((HubOp.requestFloor c x).run h).1).OwesStatus c x .granted) ∨
      (((HubOp.requestFloor c x).run h).2.holder c ≠ some x ∧
        ((asking x).next (.requestFloor c x)
          ((HubOp.requestFloor c x).run h).1).OwesStatus c x .denied) := by
    generalize h.holder c = before at hreq
    generalize ((HubOp.requestFloor c x).run h).1 = reply at hreq ⊢
    generalize ((HubOp.requestFloor c x).run h).2.holder c = after at hreq ⊢
    cases hreq with
    | absent => exact Or.inr ⟨(Option.some_ne_none x).symm, rfl, rfl, rfl⟩
    | free => exact Or.inl ⟨rfl, rfl, rfl, rfl⟩
    | held => exact Or.inl ⟨rfl, rfl, rfl, rfl⟩
    | preempts y hne hp => exact Or.inl ⟨rfl, rfl, Or.inl ⟨rfl, rfl⟩⟩
    | denied y hne hp => exact Or.inr ⟨fun heq => hne (Option.some.inj heq), rfl, rfl, rfl⟩
  have hdone : ((asking x).next (.requestFloor c x)
      ((HubOp.requestFloor c x).run h).1).keying = [] := by
    rcases ((HubOp.requestFloor c x).run h).1 with ⟨granted, reason, speaker, preempted⟩
    cases granted <;> cases preempted <;> rfl
  rcases hout with ⟨hheld, howes⟩ | ⟨hheld, howes⟩
  · exact .granted rfl hdone hheld howes
  · exact .denied rfl hdone hheld howes

/-- After a release the floor is not the client's, whoever held it. -/
theorem floorCall_releases :
    FloorCall c x h ((HubOp.releaseFloor c x).run h).2 (releasing x)
      ((releasing x).next (.releaseFloor c x) ((HubOp.releaseFloor c x).run h).1) := by
  rcases HubOp.releaseFloor_run h c x with ⟨_, hr, hfree⟩ | ⟨hnot, hr, hsame⟩
  · refine .released rfl ?_ ?_
    · rw [hr]
      rfl
    · rw [hfree]
      exact (Option.some_ne_none x).symm
  · refine .released rfl ?_ ?_
    · rw [hr]
      rfl
    · rw [hsame]
      exact hnot

theorem floorCall (hb : h.BusyAgrees)
    (hok : op.background = true ∨ s.expects (HubOp.answersChannel x c) (.client x) op)
    (hcan : op.answersChannel x c (op.run h).1) (hstays : op.leaves = false)
    (hown : s.asks = true → op.AsksOwn x) :
    FloorCall c x h (op.run h).2 s (s.next op (op.run h).1) := by
  cases hasks : s.asks with
  | false => exact floorCall_aside hok hstays hasks
  -- before it asks, a handler looks up its channel; then it makes its one floor call
  | true =>
    have hsame : op.looksAt = none → s.next op (op.run h).1 = s →
        FloorCall c x h (op.run h).2 s (s.next op (op.run h).1) := fun hop hs =>
      .other (by rw [hs]) (HubOp.holder_run_of_unlooked hop h c)
    have hlookup : ∀ y, op = .currentChannel y → y = x ∧ (y = x → h.channelOf y = some c) := by
      rintro y rfl
      exact ⟨hown hasks y rfl, hcan⟩
    rcases hok with hback | hexp
    · cases op with
      | currentChannel y =>
        obtain ⟨hy, hc⟩ := hlookup y rfl
        refine hsame rfl ?_
        show s.next (.currentChannel y) (h.channelOf y) = s
        rw [hc hy]
        cases s <;> rfl
      | _ => first
        | exact absurd hback Bool.false_ne_true
        | exact hsame rfl (by cases s <;> first | rfl | cases hasks)
    · cases s with
      | asking z =>
        cases op with
        | requestFloor ch y =>
          obtain ⟨hthread, rfl, hch⟩ := hexp
          obtain rfl := Thread.client.inj hthread
          obtain rfl := Option.some.inj (hch rfl)
          exact floorCall_requests hb
        | _ => exact hexp.elim
      | releasing z =>
        cases op with
        | releaseFloor ch y =>
          obtain ⟨hthread, rfl, hch⟩ := hexp
          obtain rfl := Thread.client.inj hthread
          obtain rfl := Option.some.inj (hch rfl)
          exact floorCall_releases
        | _ => exact hexp.elim
      | _ => cases hasks

end Stance

/-- Without its own handlers a client stays where it is. -/
theorem elsewhere_step {γ : Type} {o : Observer γ} {s t : Server γ} {e : ServerEvent}
    {x : ClientRef} (hs : Underway o s) (h : serverStep o s e = some t)
    (he : e.thread ≠ some (.client x)) : Elsewhere x s.hub t.hub := by
  apply serverStep_elsewhere h
  rintro i op k rfl hk
  have houtline := hs i
  rw [hk] at houtline
  obtain ⟨hguar, _⟩ := houtline.step (Rely.refl i)
  exact hguar x fun heq => he (congrArg some heq)

/-- Client `x` is on channel `c`, and its handlers keep it there. -/
structure Tuned (c : ChannelID) (x : ClientRef) (s : Server FloorHistory) : Prop where
  underway : Underway floorObserver s
  sound : FloorHistory.Sound (fun _ _ => True) s.hub s.pool.task s.history
  current : (s.hub.heap x).currentChannelID = c
  hasChannel : s.hub.HasChannel c
  follows : KeepsFloor (HubOp.answersChannel x c) (.client x) (s.history.stance (.client x)) .fresh
    (s.pool.task (.client x))
  stays : (s.pool.task (.client x)).All fun op => op.leaves = false
  asksOwn : (s.history.stance (.client x)).asks = true →
    (s.pool.task (.client x)).All (HubOp.AsksOwn x)

theorem asksOwn_prog {r : Request} {x : ClientRef} (hx : r.thread = .client x)
    (hr : r.stance.asks = true) : r.prog.All (HubOp.AsksOwn x) := by
  cases r with
  | signal y msg choices =>
    obtain rfl := Thread.client.inj hx
    cases msg with
    | pttDown => exact asksOwn_handlePTTDown
    | pttUp => exact asksOwn_handlePTTUp
    | identify p =>
      unfold Request.stance at hr
      dsimp only at hr
      split_ifs at hr <;> cases hr
    | _ => cases hr
  | _ => cases hr

theorem Stance.asks_of_keying {s : Stance} (h : s.keying = []) : s.asks = false := by
  cases s <;> first | rfl | cases h

/-- The calls that put a client on a channel. -/
def HubOp.moves : HubOp → Bool
  | register .. | setCurrentChannel .. => true
  | _ => false

theorem HubOp.moves_of_untouched {op : HubOp} (h : op.touched = none) : op.moves = false := by
  cases op <;> first | rfl | cases h

theorem HubOp.moves_of_background {op : HubOp} (h : op.background = true) : op.moves = false :=
  moves_of_untouched (touched_of_background h)

theorem HubOp.current_of_stays {op : HubOp} (hop : op.moves = false) (h : Hub) (x : ClientRef) :
    ((op.run h).2.heap x).currentChannelID = (h.heap x).currentChannelID := by
  have htunes : op.tunes = none := by
    cases op <;> first | rfl | cases hop
  apply TwoWayRadio.current_run
  rw [htunes]
  exact (Option.some_ne_none x).symm

theorem HubOp.current_run {op : HubOp} {h : Hub} {c : ChannelID} {x : ClientRef}
    (hstays : op.leaves = false) (hcur : (h.heap x).currentChannelID = c) (hc : h.HasChannel c) :
    ((op.run h).2.heap x).currentChannelID = c := by
  by_cases ht : op.touched = some x
  · cases op with
    | register y first =>
      obtain rfl := Option.some.inj ht
      have hof : h.channelOf y = some c := by
        rw [Hub.channelOf, hcur]
        exact if_pos hc
      show ((h.register y first).2.heap y).currentChannelID = c
      rw [Hub.register_eq, Hub.registrationChannel, hof]
      simp
    | setCurrentChannel y ch => cases hstays
    | _ => exact (current_of_stays rfl h x).trans hcur
  · exact (elsewhere_run ht h).current.trans hcur

namespace Tuned

variable {c : ChannelID} {x : ClientRef} {s t : Server FloorHistory} {e : ServerEvent}

/-- A step that no handler of `x` takes part in. -/
theorem elsewhere (hs : Tuned c x s) (h : serverStep floorObserver s e = some t)
    (he : e.thread ≠ some (.client x)) : Tuned c x t := by
  have hfar := elsewhere_step hs.underway h he
  have htask := serverStep_task h he
  have hstance := FloorHistory.stance_of_unmoved floorObserver_tracks h he
  refine ⟨underway_step _ _ _ _ hs.underway h,
    FloorHistory.sound_step floorObserver_tracks (fun _ => trivial) hs.sound h,
    hfar.current.trans hs.current, hfar.hasChannel c hs.hasChannel, ?_, ?_, ?_⟩
  · rw [htask, show t.history.stance (.client x) = _ from hstance]
    exact hs.follows
  · rw [htask]
    exact hs.stays
  · rw [htask, show t.history.stance (.client x) = _ from hstance]
    exact hs.asksOwn

theorem step (hs : Tuned c x s) (h : serverStep floorObserver s e = some t)
    (he : ∀ r, e = .serve r → r.thread = .client x → r.leaves = false) : Tuned c x t := by
  by_cases hx : e.thread = some (.client x)
  -- a step of another thread
  swap
  · exact hs.elsewhere h hx
  have hunderway := underway_step _ _ _ _ hs.underway h
  have hsound : FloorHistory.Sound (fun _ _ => True) t.hub t.pool.task t.history :=
    FloorHistory.sound_step floorObserver_tracks (fun _ => trivial) hs.sound h
  cases e with
  | serve r =>
    obtain ⟨_, _, _, _, htask, _⟩ := serverStep_serve h
    obtain ⟨hhub, hstarts⟩ := serverStep_starts h
    have hthread : r.thread = .client x := Option.some.inj hx
    have hstance : t.history.stance (.client x) = r.stance := by
      rw [hstarts, ← hthread]
      exact Function.update_self ..
    rw [hthread] at htask
    refine ⟨hunderway, hsound, hhub ▸ hs.current, hhub ▸ hs.hasChannel, ?_, ?_, fun hasks => ?_⟩
    · rw [htask, hstance, ← hthread]
      exact keepsFloor_prog r
    · rw [htask]
      exact stays_prog (he r rfl hthread)
    · rw [htask]
      exact asksOwn_prog hthread (hstance ▸ hasks)
  | advance i =>
    obtain rfl : i = .client x := Option.some.inj hx
    obtain ⟨op, k, hk, _, hhub, hhist, htask, _⟩ := serverStep_advance h
    have hfollows := hs.follows
    have hstays := hs.stays
    rw [hk] at hfollows hstays
    have hstance : t.history.stance (.client x) =
        (s.history.stance (.client x)).next op (op.run s.hub).1 := by
      rw [hhist]
      exact FloorHistory.sees_stance_self ..
    refine ⟨hunderway, hsound, ?_, ?_, ?_, ?_, fun hasks => ?_⟩
    · rw [hhub]
      exact HubOp.current_run hstays.1 hs.current hs.hasChannel
    · rw [hhub]
      exact HubOp.hasChannel_run op hs.hasChannel
    · rw [htask, hstance]
      exact hfollows.2 _ (HubOp.answersChannel_run hs.current hs.hasChannel op)
    · rw [htask]
      exact hstays.2 _
    · -- a handler that is about to ask after the call was so before it
      have hbefore : (s.history.stance (.client x)).asks = true := by
        by_contra hnot
        have hkeying : ((s.history.stance (.client x)).next op (op.run s.hub).1).keying = [] :=
          Stance.keying_next (Bool.eq_false_of_not_eq_true hnot) _
        rw [hstance, Stance.asks_of_keying hkeying] at hasks
        cases hasks
      have hown := hs.asksOwn hbefore
      rw [hk] at hown
      rw [htask]
      exact hown.2 _
  | timerFires ch timer => cases hx
  | tick d => cases hx

/-- The next call of a handler of `x`. -/
theorem floorCall (hs : Tuned c x s)
    (h : serverStep floorObserver s (.advance (.client x)) = some t) :
    FloorCall c x s.hub t.hub (s.history.stance (.client x)) (t.history.stance (.client x)) := by
  obtain ⟨op, k, hk, _, hhub, hhist, _⟩ := serverStep_advance h
  have hfollows := hs.follows
  have hstays := hs.stays
  rw [hk] at hfollows hstays
  have hstance : t.history.stance (.client x) =
      (s.history.stance (.client x)).next op (op.run s.hub).1 := by
    rw [hhist]
    exact FloorHistory.sees_stance_self ..
  rw [hhub, hstance]
  refine Stance.floorCall hs.sound.busyAgrees hfollows.1
    (HubOp.answersChannel_run hs.current hs.hasChannel op) hstays.1 fun hasks => ?_
  have hown := hs.asksOwn hasks
  rw [hk] at hown
  exact hown.1

/-- A step of another thread gives `x` no floor, and if it takes one it owes `x` a status. -/
theorem others (hs : Tuned c x s) (h : serverStep floorObserver s e = some t)
    (he : e.thread ≠ some (.client x)) : (t.hub.holder c = some x → s.hub.holder c = some x) ∧
      (s.hub.holder c = some x → t.hub.holder c = some x ∨
        ∃ i st, FloorStatus.unkeys st = true ∧ (t.history.stance i).OwesStatus c x st) := by
  refine ⟨(elsewhere_step hs.underway h he).holder c, fun hheld => ?_⟩
  by_cases hlost : t.hub.holder c = some x
  · exact Or.inl hlost
  refine Or.inr ?_
  cases e with
  | serve r =>
    rw [(serverStep_starts h).1] at hlost
    exact absurd hheld hlost
  -- a call of another handler, which owes the status from then on
  | advance i =>
    obtain ⟨op, k, hk, _, hhub, hhist, _⟩ := serverStep_advance h
    have hfollows := hs.sound.follows i
    rw [hk] at hfollows
    rw [hhub] at hlost
    obtain ⟨st, hst, howes⟩ := Stance.owesStatus_of_lost hs.sound.busyAgrees hfollows.1
      (fun heq => he (congrArg some heq)) hheld hlost
    refine ⟨i, st, hst, ?_⟩
    rw [hhist]
    show ((s.history.sees i op (op.run s.hub).1 s.hub).stance i).OwesStatus c x st
    rw [FloorHistory.sees_stance_self]
    exact howes
  | timerFires ch timer =>
    obtain ⟨hf, _⟩ := serverStep_timerFires h
    exact absurd ((Hub.fireTimer_holder hf c).trans hheld) hlost
  | tick d =>
    obtain ⟨hhub, _⟩ := serverStep_tick h
    rw [hhub] at hlost
    exact absurd hheld hlost

end Tuned

end TwoWayRadio

import TwoWayRadio.FloorNames
import TwoWayRadio.HubRecorder

/-! The order of the recorder's calls: which of them handlers still have to make for a hold, and
what can be said about these holds while transmissions are started in the order of their grants. -/
namespace TwoWayRadio
open Interleaving

/-- The calls of the recorder that name a speaker by the floor alone: `OnTransmissionStart` after
a grant, `AppendAudio` after a floor check, and the `OnTransmissionEnd` of a `ptt_up`. -/
inductive Duty
  | start | append | finish
deriving DecidableEq

/-- What a handler still has to do with the recorder, on which channel and for which client. -/
def Stance.owes : Stance → Option (Duty × ChannelID × ClientRef)
  | preempting c x _ | notifying c x _ | granted c x => some (.start, c, x)
  | checked c x | appending c x => some (.append, c, x)
  | released c x => some (.finish, c, x)
  | _ => none

namespace Stance

/-- The effect on a floor, from `before` to `after`, of a call that looks at it, and what its
caller owes the recorder then. -/
inductive Looked (i : Thread) (c : ChannelID) :
    Option ClientRef → Option (Duty × ChannelID × ClientRef) → Option ClientRef → Prop
  | nothing {before after : Option ClientRef} (h : after = before ∨ after = none) :
      Looked i c before none after
  | grants {before : Option ClientRef} (x : ClientRef) (hi : i = .client x) :
      Looked i c before (some (.start, c, x)) (some x)
  | checks (x : ClientRef) (hi : i = .client x) :
      Looked i c (some x) (some (.append, c, x)) (some x)
  | releases (x : ClientRef) (hi : i = .client x) :
      Looked i c (some x) (some (.finish, c, x)) none

variable {can : (op : HubOp) → op.Res → Prop} {i : Thread} {s : Stance} {op : HubOp} {h : Hub}
  {c : ChannelID}

theorem Looked.owner {i : Thread} {c c' : ChannelID} {before after : Option ClientRef} {d : Duty}
    {x : ClientRef} (hl : Looked i c before (some (d, c', x)) after) :
    i = .client x ∧ c' = c := by
  cases hl with
  | grants x hi => exact ⟨hi, rfl⟩
  | checks x hi => exact ⟨hi, rfl⟩
  | releases x hi => exact ⟨hi, rfl⟩

/-- Whoever comes to hold a floor has a transmission to start. -/
theorem Looked.owes_of_changed {i : Thread} {c : ChannelID} {before after : Option ClientRef}
    {owes : Option (Duty × ChannelID × ClientRef)} {x : ClientRef}
    (hl : Looked i c before owes after) (hchanged : after ≠ before) (hx : after = some x) :
    owes = some (.start, c, x) := by
  cases hl with
  | nothing h =>
    rcases h with heq | heq
    · exact absurd heq hchanged
    · rw [heq] at hx
      cases hx
  | grants y hi =>
    obtain rfl := Option.some.inj hx
    rfl
  | checks y hi => exact absurd rfl hchanged
  | releases y hi => cases hx

theorem Looked.holder_of_start {i : Thread} {c : ChannelID} {before after : Option ClientRef}
    {x : ClientRef} (hl : Looked i c before (some (.start, c, x)) after) : after = some x := by
  cases hl with
  | grants x hi => rfl

/-- Calls that look at a floor are made by handlers that owe nothing. -/
theorem looked (hb : h.BusyAgrees) (hok : op.background = true ∨ s.expects can i op)
    (hop : op.looksAt = some c) :
    s.owes = none ∧
      Looked i c (h.holder c) (s.next op (op.run h).1).owes ((op.run h).2.holder c) := by
  -- one case for each call that looks at a floor, in the stance that makes it
  cases looks hok hop with
  | removes x =>
    refine ⟨rfl, ?_⟩
    rcases HubOp.removeSubscriber_run h c x with
      ⟨_, hr, hfree⟩ | ⟨_, hr, hsame⟩ <;> rw [hr]
    · exact .nothing (Or.inr hfree)
    · exact .nothing (Or.inl hsame)
  | requests x _ =>
    refine ⟨rfl, ?_⟩
    have hreq := HubOp.requestFloor_run c x hb
    generalize h.holder c = before at hreq
    generalize ((HubOp.requestFloor c x).run h).1 = reply at hreq ⊢
    generalize ((HubOp.requestFloor c x).run h).2.holder c = after at hreq ⊢
    cases hreq with
    | absent => exact .nothing (Or.inl rfl)
    | free => exact .grants x rfl
    | held => exact .grants x rfl
    | preempts y hne hp => exact .grants x rfl
    | denied y hne hp => exact .nothing (Or.inl rfl)
  | releases x _ =>
    refine ⟨rfl, ?_⟩
    rcases HubOp.releaseFloor_run h c x with
      ⟨hheld, hr, hfree⟩ | ⟨_, hr, hsame⟩ <;> rw [hr]
    · rw [hheld, hfree]
      exact .releases x rfl
    · exact .nothing (Or.inl hsame)
  | checks x =>
    refine ⟨rfl, ?_⟩
    cases hr : ((HubOp.isFloorHolder c x).run h).1 with
    | false => exact .nothing (Or.inl rfl)
    | true =>
      have hheld : h.holder c = some x := HubOp.isFloorHolder_run hr
      show Looked _ c (h.holder c) _ (h.holder c)
      rw [hheld]
      exact .checks x rfl
  | reads x => exact ⟨rfl, .nothing (Or.inl rfl)⟩
  | expires timer =>
    refine ⟨rfl, ?_⟩
    rcases HubOp.handleTOT_run h c timer with
      ⟨hr, hsame⟩ | ⟨y, hr, _, hfree⟩ <;> rw [hr]
    · exact .nothing (Or.inl hsame)
    · exact .nothing (Or.inr hfree)

/-- Other calls do not make a handler owe anything, and a start is only settled by making it. -/
theorem next_owes (hok : op.background = true ∨ s.expects can i op) (hop : op.looksAt = none)
    (r : op.Res) : (s.next op r).owes = s.owes ∨ ((s.next op r).owes = none ∧
      ∀ c x, s.owes = some (.start, c, x) → op = .onTransmissionStart c x) := by
  have htold : ∀ {msg : Signal} {moved stays : Stance}, moved.owes = stays.owes →
      (told msg moved stays).owes = stays.owes := by
    intro msg moved stays h
    exact told_rule (fun s => s.owes = stays.owes) (fun _ => h) rfl
  fun_cases next s op r <;> first
    | exact absurd hop (Option.some_ne_none _)
    | exact Or.inl rfl
    | exact Or.inl (htold rfl)
    | (refine Or.inr ⟨rfl, fun _ _ h => ?_⟩; cases h; done)
    | skip
  rcases hok with hback | ⟨rfl, rfl⟩
  · exact absurd hback Bool.false_ne_true
  · exact Or.inr ⟨rfl, fun c' x' h => by cases h; rfl⟩

/-- `OnTransmissionStart` is called by a handler that has been granted the floor. -/
theorem granted_of_start {x : ClientRef}
    (hok : (HubOp.onTransmissionStart c x).background = true ∨
      s.expects can i (.onTransmissionStart c x)) : s = .granted c x := by
  rcases hok with hback | hexp
  · exact absurd hback Bool.false_ne_true
  · cases s with
    | granted c' x' =>
      obtain ⟨rfl, rfl⟩ := hexp
      rfl
    | fresh => exact absurd hexp Bool.false_ne_true
    | _ => exact hexp.elim

/-- `AppendAudio` is called by a handler whose packet has passed the floor check. -/
theorem appending_of_append {payload : Bytes}
    (hok : (HubOp.appendAudio c payload).background = true ∨
      s.expects can i (.appendAudio c payload)) : ∃ x, s = .appending c x ∧ i = .client x := by
  rcases hok with hback | hexp
  · exact absurd hback Bool.false_ne_true
  · cases s with
    | appending c' x =>
      obtain ⟨hi, rfl⟩ := hexp
      exact ⟨x, rfl, hi⟩
    | fresh => exact absurd hexp Bool.false_ne_true
    | _ => exact hexp.elim

theorem channel_of_owes {d : Duty} {x : ClientRef} (h : s.owes = some (d, c, x)) :
    s.channel = some c := by
  cases s <;> first | cases h; done | (cases h; rfl)

theorem released_of_owes {x : ClientRef} (h : s.owes = some (.finish, c, x)) :
    s = .released c x := by
  cases s <;> first | cases h; done | (cases h; rfl)

end Stance

/-- `started` is the epoch of the grant whose transmission was started last on each channel. The
handlers that owe the recorder something owe it for that hold or, to start with, for a later. -/
structure InTurn (h : Hub) (f : FloorHistory) (started : ChannelID → ℕ) : Prop where
  owner : ∀ i d c x, (f.stance i).owes = some (d, c, x) → i = .client x
  started_le : ∀ i d c x, (f.stance i).owes = some (d, c, x) → started c ≤ f.since i
  started_le_epoch : ∀ c, started c ≤ f.epoch c
  begun : ∀ c x, h.holder c = some x → started c = f.epoch c ∨
    ((f.stance (.client x)).owes = some (.start, c, x) ∧ f.since (.client x) = f.epoch c)
  append : ∀ i c x, (f.stance i).owes = some (.append, c, x) → started c = f.since i
  finish : ∀ i c x, (f.stance i).owes = some (.finish, c, x) →
    started c + 1 = f.since i ∧ f.holderAt c (started c) = some x

namespace InTurn

variable {h : Hub} {f : FloorHistory} {started : ChannelID → ℕ} {i : Thread} {op : HubOp}
  {c : ChannelID} {x : ClientRef}

/-- What a handler owes after a call comes of it, or the call is another handler's. -/
theorem owes_of_sees {j : Thread} {d : Duty} {r : op.Res}
    (hj : ((f.sees i op r h).stance j).owes = some (d, c, x)) :
    (j = i ∧ ((f.stance i).next op r).owes = some (d, c, x)) ∨
      (j ≠ i ∧ (f.stance j).owes = some (d, c, x) ∧ (f.sees i op r h).since j = f.since j) := by
  by_cases heq : j = i
  · rw [heq, FloorHistory.sees_stance_self] at hj
    exact Or.inl ⟨heq, hj⟩
  · rw [FloorHistory.sees_stance_of_ne heq] at hj
    exact Or.inr ⟨heq, hj, FloorHistory.sees_since_of_ne heq r⟩

/-- A call that looks at no floor makes nobody owe anything else. -/
theorem owes_of_sees_unlooked {can : (op : HubOp) → op.Res → Prop} {j : Thread} {d : Duty}
    (hok : op.background = true ∨ (f.stance i).expects can i op) (hop : op.looksAt = none)
    (hj : ((f.sees i op (op.run h).1 h).stance j).owes = some (d, c, x)) :
    (f.stance j).owes = some (d, c, x) := by
  rcases owes_of_sees hj with ⟨rfl, hj⟩ | ⟨_, hj, _⟩
  · rcases Stance.next_owes hok hop (op.run h).1 with hsame | ⟨hnone, _⟩
    · rw [← hsame, hj]
    · rw [hnone] at hj
      cases hj
  · exact hj

theorem sees_epoch_unlooked (hop : op.looksAt = none) (c : ChannelID) :
    (f.sees i op (op.run h).1 h).epoch c = f.epoch c :=
  if_pos (HubOp.holder_run_of_unlooked hop h c)

theorem sees_since_of_unlooked (hop : op.looksAt = none) (j : Thread) :
    (f.sees i op (op.run h).1 h).since j = f.since j := by
  by_cases hj : j = i
  · rw [hj, FloorHistory.sees_since_unlooked i hop]
  · exact FloorHistory.sees_since_of_ne hj _

/-- A call that looks at no floor and starts no transmission. -/
theorem unlooked {can : (op : HubOp) → op.Res → Prop} (ht : InTurn h f started)
    (hcurrent : ∀ c, f.holderAt c (f.epoch c) = h.holder c)
    (hok : op.background = true ∨ (f.stance i).expects can i op) (hop : op.looksAt = none)
    (hstart : ∀ c x, op ≠ .onTransmissionStart c x) :
    InTurn (op.run h).2 (f.sees i op (op.run h).1 h) started := by
  -- a start that is due stays due: only its own call settles it
  have hkeeps : ∀ j c x, (f.stance j).owes = some (.start, c, x) →
      ((f.sees i op (op.run h).1 h).stance j).owes = some (.start, c, x) := by
    intro j c x hj
    by_cases heq : j = i
    · rw [heq] at hj ⊢
      rw [FloorHistory.sees_stance_self]
      rcases Stance.next_owes hok hop (op.run h).1 with hsame | ⟨_, hsettled⟩
      · rw [hsame, hj]
      · exact absurd (hsettled c x hj) (hstart c x)
    · rwa [FloorHistory.sees_stance_of_ne heq]
  refine ⟨fun j d c x hj => ht.owner j d c x (owes_of_sees_unlooked hok hop hj),
    fun j d c x hj => ?_, fun c => ?_, fun c x hc => ?_, fun j c x hj => ?_, fun j c x hj => ?_⟩
  · rw [sees_since_of_unlooked hop]
    exact ht.started_le j d c x (owes_of_sees_unlooked hok hop hj)
  · rw [sees_epoch_unlooked hop]
    exact ht.started_le_epoch c
  · rw [sees_epoch_unlooked hop, sees_since_of_unlooked hop]
    rw [HubOp.holder_run_of_unlooked hop] at hc
    rcases ht.begun c x hc with hdone | ⟨hdue, hnow⟩
    · exact Or.inl hdone
    · exact Or.inr ⟨hkeeps _ c x hdue, hnow⟩
  · rw [sees_since_of_unlooked hop]
    exact ht.append j c x (owes_of_sees_unlooked hok hop hj)
  · rw [sees_since_of_unlooked hop,
      FloorHistory.sees_holderAt_past i _ (hcurrent c) (ht.started_le_epoch c)]
    exact ht.finish j c x (owes_of_sees_unlooked hok hop hj)

/-- The grant of a handler is not the epoch of a release, in which nobody holds the floor. -/
theorem since_ne_of_finish {can : (op : HubOp) → op.Res → Prop} {task : Thread → HubProg Unit}
    (hs : FloorHistory.Sound can h task f) (hstance : f.stance i = .granted c x) {j : Thread}
    {y : ClientRef} (hj : (f.stance j).owes = some (.finish, c, y)) : f.since i ≠ f.since j := by
  intro hsame
  have hch : (f.stance i).channel = some c := by rw [hstance]; rfl
  have hgrant := hs.believes i c hch
  have hfree := hs.believes j c (Stance.channel_of_owes hj)
  rw [hstance] at hgrant
  rw [Stance.released_of_owes hj, ← hsame] at hfree
  have hgrant' : f.holderAt c (f.since i) = some x := hgrant
  have hfree' : f.holderAt c (f.since i) = none := hfree
  rw [hgrant'] at hfree'
  cases hfree'

/-- Handler `i` starts a transmission when no other handler owes the recorder anything for an
earlier hold. -/
theorem start {can : (op : HubOp) → op.Res → Prop} {task : Thread → HubProg Unit}
    (ht : InTurn h f started) (hs : FloorHistory.Sound can h task f)
    (hstance : f.stance i = .granted c x)
    (hturn : ∀ j d y, j ≠ i → (f.stance j).owes = some (d, c, y) → f.since i ≤ f.since j) :
    InTurn ((HubOp.onTransmissionStart c x).run h).2
      (f.sees i (.onTransmissionStart c x) ((HubOp.onTransmissionStart c x).run h).1 h)
      (Function.update started c (f.since i)) := by
  have hop : (HubOp.onTransmissionStart c x).looksAt = none := rfl
  have howes : (f.stance i).owes = some (.start, c, x) := by rw [hstance]; rfl
  have hch : (f.stance i).channel = some c := by rw [hstance]; rfl
  have hsince := hs.since_le i c hch
  have hstarted := ht.started_le i _ c x howes
  -- handler `i` owes nothing more, so what is still due is due to the others
  have hother : ∀ {j d c' y}, ((f.sees i (.onTransmissionStart c x)
      ((HubOp.onTransmissionStart c x).run h).1 h).stance j).owes = some (d, c', y) →
      j ≠ i ∧ (f.stance j).owes = some (d, c', y) := by
    intro j d c' y hj
    rcases owes_of_sees hj with ⟨_, hj⟩ | ⟨hne, hj, _⟩
    · rw [hstance] at hj
      cases hj
    · exact ⟨hne, hj⟩
  refine ⟨fun j d c' y hj => ht.owner j d c' y (hother hj).2, fun j d c' y hj => ?_,
    fun c' => ?_, fun c' y hc => ?_, fun j c' y hj => ?_, fun j c' y hj => ?_⟩
  · obtain ⟨hne, hj⟩ := hother hj
    rw [sees_since_of_unlooked hop]
    by_cases heq : c' = c
    · rw [heq] at hj ⊢
      rw [Function.update_self]
      exact hturn j d y hne hj
    · rw [Function.update_of_ne heq]
      exact ht.started_le j d c' y hj
  · rw [sees_epoch_unlooked hop]
    by_cases heq : c' = c
    · rw [heq, Function.update_self]
      exact hsince
    · rw [Function.update_of_ne heq]
      exact ht.started_le_epoch c'
  · rw [sees_epoch_unlooked hop, sees_since_of_unlooked hop]
    rw [HubOp.holder_run_of_unlooked hop] at hc
    by_cases heq : c' = c
    · rw [heq] at hc ⊢
      rw [Function.update_self]
      rcases ht.begun c y hc with hdone | ⟨hdue, hnow⟩
      · exact Or.inl (by omega)
      · by_cases hi : Thread.client y = i
        · exact Or.inl (by rw [← hi]; exact hnow)
        · exact Or.inr ⟨by rwa [FloorHistory.sees_stance_of_ne hi], hnow⟩
    · rw [Function.update_of_ne heq]
      rcases ht.begun c' y hc with hdone | ⟨hdue, hnow⟩
      · exact Or.inl hdone
      · have hi : Thread.client y ≠ i := by
          intro hi
          rw [hi, howes] at hdue
          cases hdue
          exact heq rfl
        exact Or.inr ⟨by rwa [FloorHistory.sees_stance_of_ne hi], hnow⟩
  · obtain ⟨hne, hj⟩ := hother hj
    rw [sees_since_of_unlooked hop]
    have hold := ht.append j c' y hj
    by_cases heq : c' = c
    · rw [heq] at hj hold ⊢
      rw [Function.update_self]
      have := hturn j _ y hne hj
      omega
    · rwa [Function.update_of_ne heq]
  · obtain ⟨hne, hj⟩ := hother hj
    rw [sees_since_of_unlooked hop]
    obtain ⟨hnext, hheld⟩ := ht.finish j c' y hj
    by_cases heq : c' = c
    · rw [heq] at hj hnext hheld ⊢
      have hdiff := since_ne_of_finish hs hstance hj
      have hle := hturn j _ y hne hj
      have hsame : f.since i = started c := by omega
      rw [Function.update_self, hsame,
        FloorHistory.sees_holderAt_past i _ (hs.current c) (ht.started_le_epoch c)]
      exact ⟨hnext, hheld⟩
    · rw [Function.update_of_ne heq,
        FloorHistory.sees_holderAt_past i _ (hs.current c') (ht.started_le_epoch c')]
      exact ⟨hnext, hheld⟩

/-- A call that looks at a floor. -/
theorem look {can : (op : HubOp) → op.Res → Prop} (ht : InTurn h f started) (hb : h.BusyAgrees)
    (hcurrent : ∀ c, f.holderAt c (f.epoch c) = h.holder c)
    (hok : op.background = true ∨ (f.stance i).expects can i op) (hop : op.looksAt = some c) :
    InTurn (op.run h).2 (f.sees i op (op.run h).1 h) started := by
  obtain ⟨hnone, hlooked⟩ := Stance.looked hb hok hop
  have hgrows := FloorHistory.epoch_le_epochAfter op h f
  have hsince : (f.sees i op (op.run h).1 h).since i = f.epochAfter op h c :=
    FloorHistory.sees_since_looked i hop _
  -- the caller owes nothing, so what was due is due to another thread and stays so
  have hidle : ∀ {d c' y}, (f.stance i).owes ≠ some (d, c', y) := by
    intro d c' y h'
    rw [hnone] at h'
    cases h'
  have hstill : ∀ {c' y}, ((f.stance (.client y)).owes = some (.start, c', y) ∧
      f.since (.client y) = f.epoch c') →
      ((f.sees i op (op.run h).1 h).stance (.client y)).owes = some (.start, c', y) ∧
        (f.sees i op (op.run h).1 h).since (.client y) = f.epoch c' := by
    rintro c' y ⟨hdue, hnow⟩
    have hi : Thread.client y ≠ i := fun hi => hidle (hi ▸ hdue)
    rw [FloorHistory.sees_stance_of_ne hi, FloorHistory.sees_since_of_ne hi]
    exact ⟨hdue, hnow⟩
  -- a holder whose own thread owes nothing has started the transmission of its hold
  have hdone : ∀ {y}, i = .client y → h.holder c = some y → started c = f.epoch c := by
    intro y hi hheld
    rcases ht.begun c y hheld with hdone | ⟨hdue, _⟩
    · exact hdone
    · exact absurd (hi ▸ hdue) hidle
  refine ⟨fun j d c' y hj => ?_, fun j d c' y hj => ?_, fun c' => ?_, fun c' y hc => ?_,
    fun j c' y hj => ?_, fun j c' y hj => ?_⟩
  · rcases owes_of_sees hj with ⟨rfl, hj⟩ | ⟨_, hj, _⟩
    · rw [hj] at hlooked
      exact hlooked.owner.1
    · exact ht.owner j d c' y hj
  · rcases owes_of_sees hj with ⟨rfl, hj⟩ | ⟨_, hj, hsame⟩
    · rw [hj] at hlooked
      rw [hsince, hlooked.owner.2]
      exact (ht.started_le_epoch c).trans (hgrows c)
    · rw [hsame]
      exact ht.started_le j d c' y hj
  · exact (ht.started_le_epoch c').trans (hgrows c')
  · rw [FloorHistory.sees_epoch]
    rcases FloorHistory.epochAfter_cases op h f c' with ⟨hsame, hholder⟩ | ⟨hnext, hchanged⟩
    · rw [hsame]
      rw [hholder] at hc
      exact (ht.begun c' y hc).imp id hstill
    · have hcc : c' = c := by
        by_contra hne
        exact hchanged (HubOp.holder_run_of_looksAt hop hne)
      rw [hcc] at hc hchanged ⊢
      -- only a grant hands the floor to somebody, and its handler then owes the start
      have howes := hlooked.owes_of_changed hchanged hc
      have hi : i = .client y := by
        rw [howes] at hlooked
        exact hlooked.owner.1
      refine Or.inr ⟨?_, ?_⟩
      · rw [← hi, FloorHistory.sees_stance_self, howes]
      · rw [← hi, hsince]
  · rcases owes_of_sees hj with ⟨rfl, hj⟩ | ⟨_, hj, hsame⟩
    · rw [hj] at hlooked
      rw [hsince]
      generalize hbefore : h.holder c = before at hlooked
      generalize hafter : (op.run h).2.holder c = after at hlooked
      cases hlooked with
      | checks x hi =>
        rw [hdone hi hbefore]
        exact (if_pos (hafter.trans hbefore.symm)).symm
    · rw [hsame]
      exact ht.append j c' y hj
  · rcases owes_of_sees hj with ⟨rfl, hj⟩ | ⟨_, hj, hsame⟩
    · rw [hj] at hlooked
      rw [hsince]
      generalize hbefore : h.holder c = before at hlooked
      generalize hafter : (op.run h).2.holder c = after at hlooked
      cases hlooked with
      -- the hold that ends here is the one whose transmission was started last
      | releases x hi =>
        rw [FloorHistory.sees_holderAt_past j _ (hcurrent c) (ht.started_le_epoch c),
          hdone hi hbefore, hcurrent, hbefore]
        refine ⟨(if_neg ?_).symm, rfl⟩
        rw [hafter, hbefore]
        exact (Option.some_ne_none y).symm
    · rw [hsame, FloorHistory.sees_holderAt_past i _ (hcurrent c') (ht.started_le_epoch c')]
      exact ht.finish j c' y hj

/-- A handler of a thread that owes nothing starts. -/
theorem starts {r : Request} (ht : InTurn h f started) (hr : (f.stance r.thread).owes = none) :
    InTurn h (f.starts r) started := by
  have hnone : ((f.starts r).stance r.thread).owes = none := by
    have hself : (f.starts r).stance r.thread = r.stance := Function.update_self ..
    rw [hself]
    exact r.stance_rule (P := fun s => s.owes = none) rfl (fun _ => rfl) (fun _ => rfl) fun _ => rfl
  have howes : ∀ {j}, ((f.starts r).stance j).owes = (f.stance j).owes := by
    intro j
    by_cases hj : j = r.thread
    · rw [hj, hnone, hr]
    · have hother : (f.starts r).stance j = f.stance j := Function.update_of_ne hj ..
      rw [hother]
  refine ⟨?_, ?_, ht.started_le_epoch, ?_, ?_, ?_⟩ <;> simp only [howes]
  · exact ht.owner
  · exact ht.started_le
  · exact ht.begun
  · exact ht.append
  · exact ht.finish

/-- A change of the hub that no floor takes part in. -/
theorem environment {h' : Hub} (ht : InTurn h f started) (hh : ∀ c, h'.holder c = h.holder c) :
    InTurn h' f started where
  owner := ht.owner
  started_le := ht.started_le
  started_le_epoch := ht.started_le_epoch
  begun := fun c x hc => ht.begun c x ((hh c).symm.trans hc)
  append := ht.append
  finish := ht.finish

end InTurn
end TwoWayRadio

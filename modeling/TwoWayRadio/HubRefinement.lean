import TwoWayRadio.HubEffects
import TwoWayRadio.HubMembership
import TwoWayRadio.Rooms
import TwoWayRadio.Roster

/-! The hub with all its concurrent handlers is a house of rooms: the clients are in the channels,
each call of the hub makes one move at most, and the hub decides as the house does. -/
namespace TwoWayRadio
open Interleaving Rooms Transition

abbrev ChannelHouse := House ClientRef ChannelID ℤ

/-- The same clients are in the channels, with the same ranks and floors. -/
structure Hub.Matches (s : ChannelHouse) (h : Hub) : Prop where
  place : ∀ x c, h.Subscribed c x ↔ s.place x = some c
  rank : ∀ x, getPriority (h.heap x) = s.rank x
  holder : ∀ c, h.holder c = s.holder c

/-- The move that a call makes, given its answer and the hub before it. -/
def HubOp.move : (op : HubOp) → op.Res → Hub → Option (Move ClientRef ChannelID ℤ)
  | addSubscriber ch x, _, _ => some (.goes x (some ch))
  | removeSubscriber _ x, _, _ => some (.goes x none)
  | requestFloor ch x, _, _ => some (.asks x ch)
  | releaseFloor ch x, _, _ => some (.gives x ch)
  | handleTOT ch _, speaker, _ => speaker.map fun _ => .expires ch
  | setRole x role, _, h => some (.ranks x (getPriority (some { h.heap x with role := role })))
  | _, _, _ => none

/-- The house beside the hub, which moves with each call. -/
def shadow : Observer ChannelHouse where
  starts _ s := s
  sees _ op r h s := (op.move r h).elim s s.apply

/-- A client comes to a channel only from nowhere, leaves the one that it is on, and asks for the
floor of no other. -/
def HubOp.Fits (h : Hub) : HubOp → Prop
  | addSubscriber ch x => h.HasChannel ch ∧ ∀ c, h.Subscribed c x → c = ch
  | removeSubscriber ch x => ∀ c, h.Subscribed c x → c = ch
  | requestFloor ch x => h.Subscribed ch x
  | _ => True

def HubOp.ranks : HubOp → Bool
  | setRole .. => true
  | _ => false

def HubOp.places : HubOp → Bool
  | addSubscriber .. | removeSubscriber .. => true
  | _ => false

section Calls

variable {h : Hub} {op : HubOp} {s : ChannelHouse} {x : ClientRef} {ch : ChannelID}

theorem getPriority_congr {c c' : Client} (hrole : c.role = c'.role) :
    getPriority c = getPriority c' := by
  unfold getPriority
  dsimp only
  rw [hrole]

/-- Only `identify` changes a rank. -/
theorem rank_run (hop : op.ranks = false) (x : ClientRef) :
    getPriority ((op.run h).2.heap x) = getPriority (h.heap x) := by
  apply getPriority_congr
  by_cases hkeep : op.keepsRoster = true
  · exact congrArg (fun who => who.2.2) (identity_run hkeep x)
  · cases op with
    | addSubscriber ch y => rw [HubOp.run, Hub.onChannel_heap]
    | removeSubscriber ch y => rw [HubOp.run, Hub.onChannel_heap]
    | setCallsign y callsign =>
      by_cases hx : x = y
      · simp [HubOp.run, Hub.setClient, hx]
      · simp [HubOp.run, Hub.setClient, Function.update_of_ne hx]
    | setRole y role => cases hop
    | broadcastAll msg => rfl
    | broadcastSignal ch msg => rfl
    | sendJSON y msg => rfl
    | sendPriorityJSON y msg => rfl
    | _ => exact (hkeep rfl).elim

/-- Only two calls change who is subscribed. -/
theorem subscribed_run_iff (hop : op.places = false) (c : ChannelID) (x : ClientRef) :
    (op.run h).2.Subscribed c x ↔ h.Subscribed c x := by
  by_cases hkeep : op.keepsRoster = true
  · rw [← Hub.mem_subscribersOf, subscribersOf_run hkeep, Hub.mem_subscribersOf]
  · cases op with
    | addSubscriber ch y => cases hop
    | removeSubscriber ch y => cases hop
    | setCallsign y callsign => exact Iff.rfl
    | setRole y role => exact Iff.rfl
    | broadcastAll msg => exact Iff.rfl
    | broadcastSignal ch msg => exact Iff.rfl
    | sendJSON y msg => exact Iff.rfl
    | sendPriorityJSON y msg => exact Iff.rfl
    | _ => exact (hkeep rfl).elim

/-- A client of whom the hub knows all channels is where the house has it. -/
theorem Hub.Matches.holder_of_only (hs : h.Matches s)
    (hx : ∀ c, h.Subscribed c x → c = ch) {c : ChannelID} (hc : s.holder c = some x) : c = ch :=
  hx c ((hs.place x c).mpr (s.present c x hc))

theorem matches_addSubscriber (hs : h.Matches s)
    (hfits : (HubOp.addSubscriber ch x).Fits h) :
    ((HubOp.addSubscriber ch x).run h).2.Matches (s.goes x (some ch)) := by
  obtain ⟨hch, hx⟩ := hfits
  refine ⟨fun y c => ?_, fun y => (rank_run rfl y).trans (hs.rank y), fun c => ?_⟩
  · show _ ↔ Function.update s.place x (some ch) y = some c
    by_cases hy : y = x
    · subst hy
      rw [Function.update_self, Option.some.injEq]
      constructor
      · intro hc
        rcases subscribed_run hc with hbefore | hjoins
        · exact (hx c hbefore).symm
        · exact (HubOp.addSubscriber.inj hjoins).1
      · rintro rfl
        exact subscribed_addSubscriber y hch
    · have hother : (HubOp.addSubscriber ch x).touched ≠ some y :=
        fun heq => hy (Option.some.inj heq).symm
      rw [Function.update_of_ne hy, ← hs.place y c]
      exact (elsewhere_run hother h).subscribed c
  · show _ = if s.holder c = some x ∧ some ch ≠ some c then none else s.holder c
    rw [HubOp.holder_run_addSubscriber, hs.holder c, if_neg]
    rintro ⟨hc, hne⟩
    exact hne (congrArg some (hs.holder_of_only hx hc).symm)

theorem matches_removeSubscriber (hs : h.Matches s)
    (hfits : (HubOp.removeSubscriber ch x).Fits h) :
    ((HubOp.removeSubscriber ch x).run h).2.Matches (s.goes x none) := by
  refine ⟨fun y c => ?_, fun y => (rank_run rfl y).trans (hs.rank y), fun c => ?_⟩
  · show _ ↔ Function.update s.place x none y = some c
    by_cases hy : y = x
    · subst hy
      rw [Function.update_self]
      refine iff_of_false (fun hc => ?_) (Option.some_ne_none c).symm
      rcases subscribed_run hc with hbefore | hjoins
      · rw [hfits c hbefore] at hc
        exact not_subscribed_removeSubscriber ch y h hc
      · cases hjoins
    · have hother : (HubOp.removeSubscriber ch x).touched ≠ some y :=
        fun heq => hy (Option.some.inj heq).symm
      rw [Function.update_of_ne hy, ← hs.place y c]
      exact (elsewhere_run hother h).subscribed c
  · show _ = if s.holder c = some x ∧ none ≠ some c then none else s.holder c
    by_cases hc : c = ch
    · subst hc
      rcases HubOp.removeSubscriber_run h c x with ⟨hholds, _, hafter⟩ | ⟨hholds, _, hafter⟩
      · rw [hafter, if_pos ⟨(hs.holder c).symm.trans hholds, (Option.some_ne_none c).symm⟩]
      · rw [hafter, if_neg (fun hand => hholds ((hs.holder c).trans hand.1)), hs.holder c]
    · have htarget : (HubOp.removeSubscriber ch x).target ≠ some c :=
        fun heq => hc (Option.some.inj heq).symm
      rw [HubOp.holder_run_of_ne htarget, if_neg, hs.holder c]
      exact fun hand => hc (hs.holder_of_only hfits hand.1)

theorem holder_of_free (hb : h.BusyAgrees) (hch : h.HasChannel ch) (hfree : h.holder ch = none) :
    ((HubOp.requestFloor ch x).run h).2.holder ch = some x := by
  obtain ⟨chan, hchan⟩ := Hub.hasChannel_iff.mp hch
  rw [Hub.holder_of_lookup hchan] at hfree
  rw [HubOp.run, Hub.holder_onChannel, if_pos rfl, hchan]
  show (chan.requestFloor h.heap x).2.activeSpeaker = some x
  have hout := Channel.requestFloor_outcome h.heap x (hb ch chan hchan)
  generalize (chan.requestFloor h.heap x).1 = reply at hout
  generalize (chan.requestFloor h.heap x).2 = chan' at hout ⊢
  cases hout with
  | fresh _ => simp
  | held hx => exact hx
  | preempts y hy _ _ =>
    rw [hfree] at hy
    cases hy
  | denied y hy _ _ =>
    rw [hfree] at hy
    cases hy

theorem Hub.Matches.yields_iff (hs : h.Matches s) {y : ClientRef} (hheld : s.holder ch = some y) :
    s.Yields ch x ↔ y = x ∨ getPriority (h.heap y) < getPriority (h.heap x) := by
  rw [hs.rank, hs.rank, House.Yields, hheld]
  constructor
  · exact fun hall => hall y rfl
  · rintro hy z hz
    rw [← Option.some.inj hz]
    exact hy

theorem matches_requestFloor (hs : h.Matches s) (hb : h.BusyAgrees)
    (hfits : (HubOp.requestFloor ch x).Fits h) :
    ((HubOp.requestFloor ch x).run h).2.Matches (s.asks x ch) := by
  have hplace : s.place x = some ch := (hs.place x ch).mp hfits
  refine ⟨fun y c => ?_, fun y => (rank_run rfl y).trans (hs.rank y), fun c => ?_⟩
  · exact (subscribed_run_iff rfl c y).trans (hs.place y c)
  · show _ = if c = ch ∧ s.place x = some ch ∧ s.Yields ch x then some x else s.holder c
    by_cases hc : c = ch
    · subst hc
      cases hheld : s.holder c with
      | none =>
        have hyields : s.Yields c x := fun y hy => by
          rw [hheld] at hy
          cases hy
        rw [if_pos ⟨rfl, hplace, hyields⟩]
        exact holder_of_free hb hfits.hasChannel ((hs.holder c).trans hheld)
      | some y =>
        have hyields := hs.yields_iff (x := x) hheld
        have hrequest := HubOp.requestFloor_run c x hb
        rw [hs.holder c, hheld] at hrequest
        generalize ((HubOp.requestFloor c x).run h).2.holder c = now at hrequest ⊢
        generalize ((HubOp.requestFloor c x).run h).1 = reply at hrequest
        cases hrequest with
        | held => rw [if_pos ⟨rfl, hplace, hyields.mpr (Or.inl rfl)⟩]
        | preempts _ _ hp => rw [if_pos ⟨rfl, hplace, hyields.mpr (Or.inr hp)⟩]
        | denied _ hne hp =>
          rw [if_neg]
          exact fun hand => (hyields.mp hand.2.2).elim hne fun hlt => absurd hp (not_le.mpr hlt)
    · have htarget : (HubOp.requestFloor ch x).target ≠ some c :=
        fun heq => hc (Option.some.inj heq).symm
      rw [HubOp.holder_run_of_ne htarget, if_neg, hs.holder c]
      exact fun hand => hc hand.1

/-- Each call makes the hub match the house after its move. -/
theorem matches_run (hs : h.Matches s) (hb : h.BusyAgrees) (hfits : op.Fits h) :
    (op.run h).2.Matches ((op.move (op.run h).1 h).elim s s.apply) := by
  have hplace (hop : op.places = false) (y : ClientRef) (c : ChannelID) :
      (op.run h).2.Subscribed c y ↔ s.place y = some c :=
    (subscribed_run_iff hop c y).trans (hs.place y c)
  have hrank (hop : op.ranks = false) (y : ClientRef) :
      getPriority ((op.run h).2.heap y) = s.rank y := (rank_run hop y).trans (hs.rank y)
  have hholder {c : ChannelID} (htarget : op.target ≠ some c) :
      (op.run h).2.holder c = s.holder c :=
    (HubOp.holder_run_of_ne htarget).trans (hs.holder c)
  cases op with
  | addSubscriber ch x => exact matches_addSubscriber hs hfits
  | removeSubscriber ch x => exact matches_removeSubscriber hs hfits
  | requestFloor ch x => exact matches_requestFloor hs hb hfits
  | releaseFloor ch x =>
    refine ⟨hplace rfl, hrank rfl, fun c => ?_⟩
    show _ = if c = ch ∧ s.holder ch = some x then none else s.holder c
    by_cases hc : c = ch
    · subst hc
      rcases HubOp.releaseFloor_run h c x with ⟨hholds, _, hafter⟩ | ⟨hholds, _, hafter⟩
      · rw [hafter, if_pos ⟨rfl, (hs.holder c).symm.trans hholds⟩]
      · rw [hafter, if_neg (fun hand => hholds ((hs.holder c).trans hand.2)), hs.holder c]
    · rw [hholder fun heq => hc (Option.some.inj heq).symm, if_neg fun hand => hc hand.1]
  | handleTOT ch timer =>
    have hsame : ((HubOp.handleTOT ch timer).run h).2.holder ch = h.holder ch →
        ((HubOp.handleTOT ch timer).run h).2.Matches s := by
      refine fun hsame => ⟨hplace rfl, hrank rfl, fun c => ?_⟩
      by_cases hc : c = ch
      · rw [hc, hsame, hs.holder ch]
      · exact hholder fun heq => hc (Option.some.inj heq).symm
    rcases HubOp.handleTOT_run h ch timer with ⟨hnone, hafter⟩ | ⟨y, hsome, _, hafter⟩
    · have hmove : (HubOp.handleTOT ch timer).move ((HubOp.handleTOT ch timer).run h).1 h = none :=
        congrArg (Option.map _) hnone
      rw [hmove]
      exact hsame hafter
    · have hmove : (HubOp.handleTOT ch timer).move ((HubOp.handleTOT ch timer).run h).1 h =
          some (.expires ch) := congrArg (Option.map _) hsome
      rw [hmove]
      refine ⟨hplace rfl, hrank rfl, fun c => ?_⟩
      show _ = if c = ch then none else s.holder c
      by_cases hc : c = ch
      · rw [hc, hafter, if_pos rfl]
      · rw [hholder fun heq => hc (Option.some.inj heq).symm, if_neg hc]
  | setRole x role =>
    refine ⟨hplace rfl, fun y => ?_,
      fun c => hholder (Option.some_ne_none c).symm⟩
    show getPriority (Function.update h.heap x _ y) = Function.update s.rank x _ y
    by_cases hy : y = x
    · subst hy
      rw [Function.update_self, Function.update_self]
    · rw [Function.update_of_ne hy, Function.update_of_ne hy]
      exact hs.rank y
  | _ =>
    exact ⟨hplace rfl, hrank rfl, fun c => hholder (Option.some_ne_none c).symm⟩

/-- What the hub answers about its floors is what the house has. -/
structure Hub.AnswersLike (s : ChannelHouse) (h : Hub) : Prop where
  isFloorHolder : ∀ ch x, ((HubOp.isFloorHolder ch x).run h).1 = true ↔ s.holder ch = some x
  releaseFloor : ∀ ch x, ((HubOp.releaseFloor ch x).run h).1 = true ↔ s.holder ch = some x
  getState : ∀ ch, ((HubOp.getState ch).run h).1.1 = (s.holder ch).isSome
  granted : ∀ ch x, s.place x = some ch →
    (((HubOp.requestFloor ch x).run h).1.granted = true ↔ (s.asks x ch).holder ch = some x)
  preempted : ∀ ch x y, s.place x = some ch →
    (((HubOp.requestFloor ch x).run h).1.preempted = some y ↔
      s.holder ch = some y ∧ y ≠ x ∧ s.Yields ch x)

/-- A request of a client in the channel is granted just if nobody keeps it from the floor. -/
theorem requestFloor_matches (hs : h.Matches s) (hb : h.BusyAgrees) (hx : s.place x = some ch) :
    (((HubOp.requestFloor ch x).run h).1.granted = true ↔ s.Yields ch x) ∧
      ∀ y, ((HubOp.requestFloor ch x).run h).1.preempted = some y ↔
        s.holder ch = some y ∧ y ≠ x ∧ s.Yields ch x := by
  have hrequest := HubOp.requestFloor_run ch x hb
  rw [hs.holder ch] at hrequest
  cases hheld : s.holder ch with
  | none =>
    have hafter : ((HubOp.requestFloor ch x).run h).2.holder ch = some x :=
      holder_of_free hb ((hs.place x ch).mpr hx).hasChannel ((hs.holder ch).trans hheld)
    have hyields : s.Yields ch x := fun y hy => by
      rw [hheld] at hy
      cases hy
    rw [hheld, hafter] at hrequest
    generalize ((HubOp.requestFloor ch x).run h).1 = reply at hrequest ⊢
    cases hrequest with
    | free => exact ⟨iff_of_true rfl hyields, fun y => iff_of_false nofun nofun⟩
  | some z =>
    have hyields := hs.yields_iff (x := x) hheld
    rw [hheld] at hrequest
    generalize ((HubOp.requestFloor ch x).run h).2.holder ch = now at hrequest
    generalize ((HubOp.requestFloor ch x).run h).1 = reply at hrequest ⊢
    cases hrequest with
    | held =>
      refine ⟨iff_of_true rfl (hyields.mpr (Or.inl rfl)), fun y => iff_of_false nofun ?_⟩
      rintro ⟨hy, hne, _⟩
      exact hne (Option.some.inj hy).symm
    | preempts _ hne hp =>
      have hyes : s.Yields ch x := hyields.mpr (Or.inr hp)
      refine ⟨iff_of_true rfl hyes, fun y => ⟨fun hy => ⟨hy, ?_, hyes⟩, And.left⟩⟩
      rw [← Option.some.inj hy]
      exact hne
    | denied _ hne hp =>
      have hno : ¬ s.Yields ch x := fun hyes =>
        (hyields.mp hyes).elim hne fun hlt => absurd hp (not_le.mpr hlt)
      exact ⟨iff_of_false Bool.false_ne_true hno,
        fun y => iff_of_false nofun fun hall => hno hall.2.2⟩

theorem Hub.Matches.answersLike (hs : h.Matches s) (hb : h.BusyAgrees) : h.AnswersLike s where
  isFloorHolder ch x := by
    rw [← hs.holder ch]
    exact HubOp.isFloorHolder_iff hb
  releaseFloor ch x := by
    rw [← hs.holder ch]
    rcases HubOp.releaseFloor_run h ch x with ⟨hholds, hr, _⟩ | ⟨hholds, hr, _⟩
    · exact iff_of_true hr hholds
    · rw [hr]
      exact iff_of_false Bool.false_ne_true hholds
  getState ch := by
    rw [← hs.holder ch]
    exact HubOp.getState_run hb
  granted ch x hx := (requestFloor_matches hs hb hx).1.trans (House.asks_holder_iff hx).symm
  preempted ch x y hx := (requestFloor_matches hs hb hx).2 y

end Calls

/-- The hub beside its house. -/
def Shadowed (s : Hub × ChannelHouse) : Prop := s.1.BusyAgrees ∧ s.1.Matches s.2

theorem shadowed_run {op : HubOp} {t : Hub × ChannelHouse} (i : Thread) (hfits : op.Fits t.1)
    (ht : Shadowed t) : Shadowed (shadow.run i op t).2 :=
  ⟨HubOp.busyAgrees_run ht.1 op, matches_run ht.2 ht.1 hfits⟩

theorem HubOp.fits_of_untouched {op : HubOp} (hop : op.touched = none) (h : Hub) : op.Fits h := by
  cases op <;> trivial

section Handlers

variable (x : ClientRef)

/-- The rest of a handler of `x` makes the hub's moves those of the house, whatever the other
threads do in between. -/
def Fitting {α : Type} (p : HubProg α) (s : Hub × ChannelHouse) : Prop :=
  p.Outline (shadow.run (.client x)) (fun s t => Elsewhere x s.1 t.1)
    (fun s t => Shadowed s → Shadowed t) (fun _ _ => True) s

variable {x}

theorem fitting_call {α : Type} {op : HubOp} {k : op.Res → HubProg α} {s : Hub × ChannelHouse}
    (h : ∀ t : Hub × ChannelHouse, Elsewhere x s.1 t.1 → op.Fits t.1 ∧
      ∀ t' : Hub × ChannelHouse, t'.1 = (op.run t.1).2 → Fitting x (k (op.run t.1).1) t') :
    Fitting x (.call op k) s :=
  fun t ht => ⟨shadowed_run _ (h t ht).1, (h t ht).2 _ rfl⟩

theorem fitting_of_untouched {α : Type} {p : HubProg α} {s : Hub × ChannelHouse}
    (hp : p.All fun op => op.touched = none) : Fitting x p s :=
  Prog.Outline.guarantee (Prog.outline_of_forall (fun _ _ => trivial) p s) hp
    fun _ _ hop => shadowed_run _ (HubOp.fits_of_untouched hop _)

theorem fitting_of_background {α : Type} {p : HubProg α} {s : Hub × ChannelHouse}
    (hp : Hub.Background p) : Fitting x p s :=
  fitting_of_untouched (hp.mono fun _ => touched_of_background)

/-- First to where `p` leads, then on from there. -/
theorem fitting_bind {α β : Type} {Q : α → Hub → Prop} {p : HubProg α} {f : α → HubProg β}
    {s : Hub × ChannelHouse} (hleads : Leads shadow x Q p s) (hp : Fitting x p s)
    (hf : ∀ a t, Q a t.1 → Fitting x (f a) t) : Fitting x (p >>= f) s := by
  have hboth := hleads.and hp
  simp only [true_and, and_true] at hboth
  exact Prog.outline_bind hboth hf

theorem registerClient_fitting {first : ℕ} {s : Hub × ChannelHouse} (hp : Away x s.1)
    (hc : ∃ ch, s.1.HasChannel ch) : Fitting x (Hub.registerClient x first) s := by
  simp only [Hub.registerClient, Prog.perform_bind]
  refine fitting_call fun t ht => ⟨trivial, fun t' ht' => ?_⟩
  obtain ⟨cur, hp⟩ := hp.stable ht
  obtain ⟨ch, hch⟩ := hc
  obtain ⟨ch, hreg, hch, hp⟩ := hp.register first ⟨ch, ht.hasChannel ch hch⟩
  have hanswer : ((HubOp.register x first).run t.1).1 = some ch := hreg
  rw [hanswer]
  rw [show (HubOp.register x first).run t.1 = t.1.register x first from rfl] at ht'
  rw [← ht'] at hch hp
  refine Prog.outline_bind (Q := fun _ _ => True) ?_ fun _ u _ =>
    fitting_of_untouched (untouched_welcomeClient x)
  -- registered, `x` comes to its channel from nowhere
  refine fitting_call fun u hu => ⟨⟨hu.hasChannel ch hch, fun c hs => ?_⟩, fun u' _ =>
    fitting_of_background (Hub.background_broadcastUserList ch)⟩
  cases ((hp.stable hu).subscribed c).mp hs

theorem fits_removeSubscriber {registered : Prop} {ch cur : ChannelID} {h : Hub}
    (hp : Placed x registered (some ch) cur h) : (HubOp.removeSubscriber ch x).Fits h :=
  fun c hs => (Option.some.inj ((hp.subscribed c).mp hs)).symm

theorem unregisterClient_fitting {s : Hub × ChannelHouse} (hp : Home x s.1) :
    Fitting x (Hub.unregisterClient x) s := by
  simp only [Hub.unregisterClient, Prog.perform_bind]
  refine fitting_call fun t ht => ⟨trivial, fun t' ht' => ?_⟩
  obtain ⟨ch, hp⟩ := hp.stable ht
  have hanswer : ((HubOp.unregister x).run t.1).1 = some ch := hp.channelOf hp.hasChannel
  rw [hanswer]
  have hp' := hp.unregister
  rw [show (t.1.unregister x).2 = t'.1 from ht'.symm] at hp'
  refine fitting_call fun u hu => ⟨fits_removeSubscriber (hp'.stable hu), fun u' _ => ?_⟩
  refine fitting_of_untouched ?_
  exact Prog.all_bind ((Hub.background_broadcastUserList ch).mono fun _ => touched_of_background)
    fun _ => Prog.all_bind ((Hub.background_endVideoOf ch x).mono fun _ => touched_of_background)
    fun _ => Prog.all_when (Prog.all_then rfl fun c => untouched_announceIdle ch c)

theorem leaveChannel_fitting {registered : Prop} {ch cur : ChannelID} {c : Client}
    {s : Hub × ChannelHouse} (hp : Placed x registered (some ch) cur s.1) :
    Fitting x (Hub.leaveChannel x c ch) s := by
  simp only [Hub.leaveChannel, Prog.perform_bind]
  refine fitting_call fun t ht => ⟨fits_removeSubscriber (hp.stable ht), fun t' _ => ?_⟩
  refine fitting_of_untouched ?_
  exact Prog.all_bind ((Hub.background_broadcastUserList ch).mono fun _ => touched_of_background)
    fun _ => Prog.all_bind (Prog.all_when (untouched_announceIdle ch c))
    fun _ => (Hub.background_endVideoOf ch x).mono fun _ => touched_of_background

theorem enterChannel_fitting {registered : Prop} {cur new : ChannelID} {s : Hub × ChannelHouse}
    (hp : Placed x registered none cur s.1) (hc : s.1.HasChannel new) :
    Fitting x (Hub.enterChannel x new) s := by
  simp only [Hub.enterChannel, Prog.perform_bind]
  refine fitting_call fun t ht => ⟨trivial, fun t' ht' => fitting_call fun u hu =>
    ⟨⟨hu.hasChannel new ?_, fun c hs => ?_⟩, fun u' _ => ?_⟩⟩
  · rw [ht']
    exact HubOp.hasChannel_run _ (ht.hasChannel new hc)
  · have hp' : Placed x registered none new t'.1 := by
      rw [ht']
      exact (hp.stable ht).setCurrentChannel new
    cases ((hp'.stable hu).subscribed c).mp hs
  · refine fitting_of_untouched ?_
    exact Prog.all_bind ((Hub.background_broadcastUserList new).mono fun _ => touched_of_background)
      fun _ => untouched_showChannel x new

theorem switchChannel_fitting {new : ChannelID} {password : String} {s : Hub × ChannelHouse}
    (hp : Home x s.1) : Fitting x (Hub.switchChannel x new password) s := by
  simp only [Hub.switchChannel, Prog.perform_bind]
  refine fitting_call fun t ht => ⟨trivial, fun t' ht' => ?_⟩
  obtain ⟨ch, hp⟩ := hp.stable ht
  have hp' : Placed x True (some ch) ch t'.1 := by
    rw [ht']
    exact hp
  have hold : ((HubOp.lookupSwitch x new).run t.1).1.2 = some ch := hp.channelOf hp.hasChannel
  cases htarget : ((HubOp.lookupSwitch x new).run t.1).1.1 with
  | none => exact fitting_of_untouched (Prog.all_perform rfl)
  | some definition =>
    have hnew : t'.1.HasChannel new := by
      rw [ht']
      refine Hub.hasChannel_iff_definition.mpr ⟨definition, ?_⟩
      exact htarget
    refine fitting_call fun u hu => ⟨trivial, fun u' hu' => ?_⟩
    have hpu : Placed x True (some ch) ch u'.1 := by
      rw [hu']
      exact hp'.stable hu
    have hnewu : u'.1.HasChannel new := by
      rw [hu']
      exact hu.hasChannel new hnew
    split_ifs
    · trivial
    · exact fitting_of_untouched (Prog.all_perform rfl)
    · rw [show ((HubOp.lookupSwitch x new).run t.1).1.2 = some ch from hold]
      exact fitting_bind (leaveChannel_leads hpu hnewu) (leaveChannel_fitting hpu)
        fun _ v hv => enterChannel_fitting hv.1 hv.2

theorem handlePTTDown_fitting {s : Hub × ChannelHouse} (hp : Home x s.1) :
    Fitting x (Hub.handlePTTDown x) s := by
  simp only [Hub.handlePTTDown, Prog.perform_bind]
  refine fitting_call fun t ht => ⟨trivial, fun t' ht' => ?_⟩
  obtain ⟨ch, hp⟩ := hp.stable ht
  have hanswer : ((HubOp.currentChannel x).run t.1).1 = some ch := hp.channelOf hp.hasChannel
  rw [hanswer]
  rw [show ((HubOp.currentChannel x).run t.1).2 = t.1 from rfl] at ht'
  rw [← ht'] at hp
  exact fitting_call fun u hu => ⟨((hp.stable hu).subscribed ch).mpr rfl,
    fun u' _ => fitting_of_untouched (untouched_answerRequest x ch _)⟩

theorem createSignal_fitting {p : Decoded CreateChannelPayload} {s : Hub × ChannelHouse}
    (hp : Home x s.1) : Fitting x (Hub.createSignal x p) s := by
  unfold Hub.createSignal Prog.when
  split_ifs
  · have hhome {op : HubOp} (hop : op.touched = none) {s t t' : Hub × ChannelHouse}
        (hs : Home x s.1) (ht : Elsewhere x s.1 t.1) (ht' : t'.1 = (op.run t.1).2) :
        Home x t'.1 := by
      rw [ht']
      refine (hs.stable ht).stable (elsewhere_run ?_ t.1)
      rw [hop]
      exact (Option.some_ne_none x).symm
    refine fitting_call fun t ht => ⟨trivial, fun t' ht' => ?_⟩
    have hp := hhome rfl hp ht ht'
    refine fitting_call fun u hu => ⟨trivial, fun u' hu' => ?_⟩
    have hp := hhome rfl hp hu hu'
    exact fitting_call fun v hv => ⟨trivial, fun v' hv' =>
      switchChannel_fitting (hhome rfl hp hv hv')⟩
  · trivial

theorem handleSignal_fitting {msg : ClientSignal} {choices : Choices} {s : Hub × ChannelHouse}
    (hp : Home x s.1) : Fitting x (Hub.handleSignal x msg choices) s := by
  refine Hub.handleSignal_rule (M := fun p => Fitting x p s) x msg choices
    (fun p hback => fitting_of_background hback) (fun p _ => ?_)
    (fun ch password => switchChannel_fitting hp) (fun p => createSignal_fitting hp)
    (fun _ => handlePTTDown_fitting hp)
    (fun _ => fitting_of_untouched (untouched_handlePTTUp x choices))
  refine fitting_of_untouched (Prog.all_when ?_)
  exact Prog.all_then rfl fun _ => Prog.all_bind (Prog.all_when (Prog.all_perform rfl)) fun _ =>
    Prog.all_then rfl fun ch => Prog.all_ifSome fun ch =>
      (Hub.background_broadcastUserList ch).mono fun _ => touched_of_background

end Handlers

section Threads

/-- Each call of a thread leaves the clients of the others alone, and makes the house move as the
hub does. -/
def MovesTogether (i : Thread) (s t : Hub × ChannelHouse) : Prop :=
  Guarantee i s t ∧ (Shadowed s → Shadowed t)

/-- Hub and house agree, and every handler in progress keeps them so. -/
structure Refining (s : Server ChannelHouse) : Prop where
  outlined : s.pool.Outlined shadow.run Rely MovesTogether (Settled s.phase)
  shadowed : Shadowed s.pool.shared

variable {s t : Server ChannelHouse} {r : Request} {phase : ClientRef → Phase}

theorem prog_fitting {h : Hub} {u : Hub × ChannelHouse} (hadm : r.admitted h phase = true)
    (hu : Settled phase r.thread u) :
    r.prog.Outline (shadow.run r.thread) (Rely r.thread) (fun s t => Shadowed s → Shadowed t)
      (fun _ _ => True) u := by
  have huntouched (p : HubProg Unit) (hp : p.All fun op => op.touched = none) :
      p.Outline (shadow.run r.thread) (Rely r.thread) (fun s t => Shadowed s → Shadowed t)
        (fun _ _ => True) u :=
    Prog.Outline.guarantee (Prog.outline_of_forall (fun _ _ => trivial) p u) hp
      fun _ _ hop => shadowed_run _ (HubOp.fits_of_untouched hop _)
  have hhome {x : ClientRef} (hx : Settled phase (.client x) u) (hlive : phase x = .live) :
      Home x u.1 := by
    have hset := hx.2
    rwa [if_pos hlive] at hset
  cases r with
  | connect x first =>
    obtain ⟨hch, haway⟩ := hu
    have hfresh : phase x = .fresh := of_decide_eq_true hadm
    rw [if_neg (by rw [hfresh]; exact Phase.noConfusion)] at haway
    exact registerClient_fitting haway hch
  | signal x msg choices => exact handleSignal_fitting (hhome hu (of_decide_eq_true hadm))
  | disconnect x => exact unregisterClient_fitting (hhome hu (of_decide_eq_true hadm))
  | audio x data => exact huntouched _ (untouched_handleBinaryAudio x data)
  | totExpires ch timer => exact huntouched _ (untouched_prog rfl rfl fun _ _ => nofun)
  | datagram data => exact huntouched _ (untouched_prog rfl rfl fun _ _ => nofun)

theorem Refining.environment {u : Hub × ChannelHouse} (hs : Refining s)
    (hu : ∀ x, Elsewhere x s.hub u.1) (i : Thread) :
    (s.pool.task i).Outline (shadow.run i) (Rely i) (MovesTogether i)
      (fun _ v => Settled s.phase i v) u := by
  have hrely : ∀ j, Rely j s.pool.shared u := fun j => by
    cases j with
    | client x => exact hu x
    | tot ch timer => trivial
    | roip => trivial
  exact Pool.Outlined.environment Rely.trans (Settled.stable s.phase) hs.outlined hrely i

theorem Refining.serve (hs : Refining s) (h : serverStep shadow s (.serve r) = some t) :
    Refining t := by
  obtain ⟨hadm, hidle, hphase, hshared, htask, hothers⟩ := serverStep_serve h
  have hsame : t.pool.shared = s.pool.shared := hshared
  refine ⟨fun i => ?_, hsame ▸ hs.shadowed⟩
  rw [hphase, hsame]
  by_cases hi : i = r.thread
  · subst hi
    rw [htask]
    have hsettled : Settled s.phase r.thread s.pool.shared := hs.outlined.idle hidle
    exact ((prog_outline hadm hsettled).and (prog_fitting hadm hsettled)).mono fun _ _ h => h.1
  · rw [hothers i hi]
    exact (hs.outlined i).mono fun _ u => settled_phaseAfter hi u

theorem Refining.step {e : ServerEvent} (hs : Refining s) (h : serverStep shadow s e = some t) :
    Refining t := by
  cases e with
  | serve r => exact hs.serve h
  | advance i =>
    obtain ⟨p, hp, rfl⟩ := Option.map_eq_some_iff.mp h
    refine ⟨Pool.Outlined.advance Rely.refl Rely.trans
      (fun i j s t hij hg => rely_of_guarantee i j s t hij hg.1) (Settled.stable s.phase)
      hs.outlined hp, ?_⟩
    -- the call that is made is the next one of an outline
    obtain ⟨op, k, hk, hshared, _⟩ := Pool.advance_eq hp
    have hi := hs.outlined i
    rw [hk] at hi
    have hmoved := (hi.step (Rely.refl i)).1.2 hs.shadowed
    rwa [← hshared] at hmoved
  | timerFires ch timer =>
    obtain ⟨hf, hphase, hhist, htask⟩ := serverStep_timerFires h
    obtain ⟨hbusy, hmatches⟩ := hs.shadowed
    refine ⟨fun i => ?_, Hub.fireTimer_busyAgrees hbusy hf, ?_⟩
    · rw [hphase, htask]
      exact hs.environment (fun x => elsewhere_fireTimer hf) i
    · show t.hub.Matches t.history
      rw [hhist]
      refine ⟨fun x c => ?_, fun x => ?_, fun c => ?_⟩
      · exact ((elsewhere_fireTimer hf).subscribed c).trans (hmatches.place x c)
      · obtain ⟨_, _, _, _, heq⟩ := Hub.fireTimer_eq hf
        rw [heq]
        exact hmatches.rank x
      · exact (Hub.fireTimer_holder hf c).trans (hmatches.holder c)
  | tick d =>
    obtain ⟨hhub, hphase, hhist, htask⟩ := serverStep_tick h
    obtain ⟨hbusy, hmatches⟩ := hs.shadowed
    have hshared : t.pool.shared = ({ s.hub with now := s.hub.now + d }, s.history) :=
      Prod.ext hhub hhist
    refine ⟨fun i => ?_, ?_⟩
    · rw [hphase, htask]
      refine hs.environment (fun x => ?_) i
      rw [hshared]
      exact Elsewhere.of_eq rfl Iff.rfl rfl
    · rw [hshared]
      exact ⟨hbusy, hmatches.place, hmatches.rank, hmatches.holder⟩

/-- A server with nobody in any room. -/
def housedServer (cfg : Config) (recorder : Option AudioRecorder) (roipRelay : Bool)
    (heap : Clients) (now : ℤ) : Server ChannelHouse :=
  Server.init (newHub cfg recorder roipRelay heap now) (House.empty fun x => getPriority (heap x))

theorem refining_init {cfg : Config} (hcfg : cfg.defaultChannels ≠ [])
    (recorder : Option AudioRecorder) (roipRelay : Bool) (heap : Clients) (now : ℤ) :
    Refining (housedServer cfg recorder roipRelay heap now) := by
  have haway := newHub_away cfg recorder roipRelay heap now
  have hmatches : (newHub cfg recorder roipRelay heap now).Matches
      (House.empty fun x => getPriority (heap x)) := by
    refine ⟨fun x c => ?_, fun x => ?_, newHub_holder cfg recorder roipRelay heap now⟩
    · obtain ⟨cur, hp⟩ := haway x
      exact hp.subscribed c
    · rw [House.empty_rank]
      exact congrArg getPriority rfl
  refine ⟨fun i => ?_, newHub_busyAgrees cfg recorder roipRelay heap now, hmatches⟩
  cases i with
  | client x => exact ⟨newHub_hasChannel hcfg _ _ _ _, haway x⟩
  | tot ch timer => trivial
  | roip => trivial

end Threads

/-- At every moment of every interleaving of the handlers, the hub is the house that has made the
moves of its calls: everybody is in one channel at most, whoever has a floor is in its channel, and
what the hub answers about its floors is what the house has. -/
theorem hub_refines {cfg : Config} (hcfg : cfg.defaultChannels ≠ [])
    {recorder : Option AudioRecorder} {roipRelay : Bool} {heap : Clients} {now : ℤ}
    {es : List ServerEvent} {s : Server ChannelHouse}
    (hrun : Run (serverStep shadow) (housedServer cfg recorder roipRelay heap now) es s) :
    s.hub.Matches s.history ∧ s.hub.AnswersLike s.history := by
  have hs : Refining s := hrun.invariant (fun _ _ _ hs h => hs.step h)
    (refining_init hcfg recorder roipRelay heap now)
  obtain ⟨hbusy, hmatches⟩ := hs.shadowed
  exact ⟨hmatches, hmatches.answersLike hbusy⟩

/-- A unit talks and a dispatcher on its channel presses: the next call preempts the unit. -/
def pressesOver : List ServerEvent :=
  uninterrupted (.connect 0 0) 10 ++ uninterrupted (.connect 1 0) 10 ++
    uninterrupted (.signal 0 .pttDown {}) 8 ++ uninterrupted (.signal 1 .pttDown {}) 1

theorem hub_refines_pressesOver :
    ∃ s, Run (serverStep shadow) (housedServer defaultConfig none false sampleClients 0)
        pressesOver s ∧
      s.history.holder 1 = some 0 ∧
      ((HubOp.requestFloor 1 1).run s.hub).1.preempted = some 0 ∧
      (s.history.asks 1 1).holder 1 = some 1 := by
  have hrun := run_get (serverStep shadow) (housedServer defaultConfig none false sampleClients 0)
    pressesOver (by decide +kernel)
  have hanswers := (hub_refines (by decide) hrun).2
  refine ⟨_, hrun, ?_, by decide +kernel, ?_⟩
  · exact ((hanswers.preempted 1 1 0 (by decide +kernel)).mp (by decide +kernel)).1
  · exact (hanswers.granted 1 1 (by decide +kernel)).mp (by decide +kernel)

end TwoWayRadio

import TwoWayRadio.FloorProtocol
import TwoWayRadio.HubFloor

/-! The history of the floors beside a running server: how often each has changed hands, where
each handler stands, and how old its knowledge of the floor is. -/
namespace TwoWayRadio
open Interleaving

/-- `epoch` counts the changes of a channel's holder, `holderAt` is the holder in each epoch so
far, and `since` the epoch in which a thread's handler last looked at or changed a floor. -/
structure FloorHistory where
  epoch : ChannelID → ℕ
  holderAt : ChannelID → ℕ → Option ClientRef
  stance : Thread → Stance
  since : Thread → ℕ

namespace FloorHistory

def init : FloorHistory where
  epoch := fun _ => 0
  holderAt := fun _ _ => none
  stance := fun _ => .fresh
  since := fun _ => 0

def starts (r : Request) (f : FloorHistory) : FloorHistory :=
  { f with stance := Function.update f.stance r.thread r.stance }

def epochAfter (op : HubOp) (h : Hub) (f : FloorHistory) (c : ChannelID) : ℕ :=
  if (op.run h).2.holder c = h.holder c then f.epoch c else f.epoch c + 1

def sees (i : Thread) (op : HubOp) (r : op.Res) (h : Hub) (f : FloorHistory) : FloorHistory where
  epoch := f.epochAfter op h
  holderAt := fun c =>
    Function.update (f.holderAt c) (f.epochAfter op h c) ((op.run h).2.holder c)
  stance := Function.update f.stance i ((f.stance i).next op r)
  since := match op.looksAt with
    | some c => Function.update f.since i (f.epochAfter op h c)
    | none => f.since

end FloorHistory

namespace Stance

/-- The channel a stance is about. -/
def channel : Stance → Option ChannelID
  | fresh | identifying _ | asking _ | releasing _ => none
  | refused c _ | preempting c _ _ | notifying c _ _ | granted c _ | confirming c _ | talking c _
  | talked c _ | released c _ | saved c _ _ | expired c _ | timingOut c _ | quiet c _
  | stopping c _ | stopped c _ | checked c _ | appending c _ | dispatching c _ | shown c _ =>
    some c

/-- The holder a handler believes its channel to have. -/
def Believes : Stance → Option ClientRef → Prop
  | preempting _ x _, ho | notifying _ x _, ho | granted _ x, ho | confirming _ x, ho
  | talking _ x, ho | talked _ x, ho | checked _ x, ho | appending _ x, ho
  | dispatching _ x, ho => ho = some x
  | released .., ho | saved .., ho | expired .., ho | timingOut .., ho | quiet .., ho
  | stopping .., ho | stopped .., ho => ho = none
  | shown _ isBusy, ho => ho.isSome = isBusy
  | _, _ => True

/-- A stance only moves along its channel unless the call looks at a floor. -/
theorem next_channel {s : Stance} {op : HubOp} (hop : op.looksAt = none) (r : op.Res) :
    (s.next op r).channel = none ∨
      ((s.next op r).channel = s.channel ∧ ∀ ho, s.Believes ho → (s.next op r).Believes ho) := by
  have htold : ∀ {msg : Signal} {moved stays : Stance},
      (moved.channel = none ∨ (moved.channel = stays.channel ∧
        ∀ ho, stays.Believes ho → moved.Believes ho)) →
      (told msg moved stays).channel = none ∨ ((told msg moved stays).channel = stays.channel ∧
        ∀ ho, stays.Believes ho → (told msg moved stays).Believes ho) := by
    intro msg moved stays h
    exact told_rule (fun s' => s'.channel = none ∨ (s'.channel = stays.channel ∧
      ∀ ho, stays.Believes ho → s'.Believes ho)) (fun _ => h) (Or.inr ⟨rfl, fun _ hb => hb⟩)
  fun_cases next s op r <;> first
    | exact absurd hop (Option.some_ne_none _)
    | exact Or.inl rfl
    | exact Or.inr ⟨rfl, fun _ hb => hb⟩
    | exact htold (Or.inl rfl)
    | exact htold (Or.inr ⟨rfl, fun _ hb => hb⟩)

/-- What a handler believes about a floor right after it has looked at it. -/
theorem believes_looked {can : (op : HubOp) → op.Res → Prop} {i : Thread} {s : Stance}
    {op : HubOp} {h : Hub} {c : ChannelID} (hb : h.BusyAgrees)
    (hok : op.background = true ∨ s.expects can i op) (hop : op.looksAt = some c) :
    (s.next op (op.run h).1).channel = none ∨
      ((s.next op (op.run h).1).channel = some c ∧
        (s.next op (op.run h).1).Believes ((op.run h).2.holder c)) := by
  -- one case for each call that looks at a floor, in the stance that makes it
  cases looks hok hop with
  | removes x =>
    rcases HubOp.removeSubscriber_run h c x with
      ⟨_, hr, hfree⟩ | ⟨_, hr, _⟩ <;> rw [hr]
    · exact Or.inr ⟨rfl, hfree⟩
    · exact Or.inl rfl
  | requests x _ =>
    have hreq := HubOp.requestFloor_run c x hb
    generalize h.holder c = before at hreq
    generalize ((HubOp.requestFloor c x).run h).1 = reply at hreq ⊢
    generalize ((HubOp.requestFloor c x).run h).2.holder c = after at hreq ⊢
    cases hreq with
    | absent => exact Or.inr ⟨rfl, trivial⟩
    | free => exact Or.inr ⟨rfl, rfl⟩
    | held => exact Or.inr ⟨rfl, rfl⟩
    | preempts y hne hp => exact Or.inr ⟨rfl, rfl⟩
    | denied y hne hp => exact Or.inr ⟨rfl, trivial⟩
  | releases x _ =>
    rcases HubOp.releaseFloor_run h c x with
      ⟨_, hr, hfree⟩ | ⟨_, hr, _⟩ <;> rw [hr]
    · exact Or.inr ⟨rfl, hfree⟩
    · exact Or.inl rfl
  | checks x =>
    cases hr : ((HubOp.isFloorHolder c x).run h).1 with
    | false => exact Or.inl rfl
    | true => exact Or.inr ⟨rfl, HubOp.isFloorHolder_run hr⟩
  | reads x => exact Or.inr ⟨rfl, (HubOp.getState_run hb).symm⟩
  | expires timer =>
    rcases HubOp.handleTOT_run h c timer with
      ⟨hr, _⟩ | ⟨y, hr, _, hfree⟩ <;> rw [hr]
    · exact Or.inl rfl
    · exact Or.inr ⟨rfl, hfree⟩

end Stance

namespace HubOp

theorem holder_run_of_unlooked {op : HubOp} (hop : op.looksAt = none) (h : Hub) (c : ChannelID) :
    (op.run h).2.holder c = h.holder c := by
  by_cases ht : op.target = none
  · exact holder_run_of_ne (by rw [ht]; exact (Option.some_ne_none c).symm)
  · cases op with
    | addSubscriber ch client => exact holder_run_addSubscriber c
    | removeSubscriber ch client => cases hop
    | requestFloor ch client => cases hop
    | releaseFloor ch client => cases hop
    | handleTOT ch timer => cases hop
    | _ => exact absurd rfl ht

/-- A call that looks at one floor leaves the others. -/
theorem holder_run_of_looksAt {op : HubOp} {h : Hub} {c c' : ChannelID}
    (hop : op.looksAt = some c) (hne : c' ≠ c) : (op.run h).2.holder c' = h.holder c' := by
  refine holder_run_of_ne ?_
  cases op with
  | removeSubscriber ch x => exact fun ht => hne (Option.some.inj (ht.symm.trans hop))
  | requestFloor ch x => exact fun ht => hne (Option.some.inj (ht.symm.trans hop))
  | releaseFloor ch x => exact fun ht => hne (Option.some.inj (ht.symm.trans hop))
  | handleTOT ch timer => exact fun ht => hne (Option.some.inj (ht.symm.trans hop))
  | isFloorHolder ch x => exact (Option.some_ne_none c').symm
  | getState ch => exact (Option.some_ne_none c').symm
  | _ => cases hop

end HubOp

namespace FloorHistory

variable {f : FloorHistory} {h : Hub} {op : HubOp} {c : ChannelID}

@[simp] theorem sees_epoch (i : Thread) (r : op.Res) :
    (f.sees i op r h).epoch c = f.epochAfter op h c := rfl

@[simp] theorem sees_stance_self (i : Thread) (r : op.Res) :
    (f.sees i op r h).stance i = (f.stance i).next op r :=
  Function.update_self ..

theorem sees_stance_of_ne {i j : Thread} (hj : j ≠ i) (r : op.Res) :
    (f.sees i op r h).stance j = f.stance j :=
  Function.update_of_ne hj ..

theorem sees_since_of_ne {i j : Thread} (hj : j ≠ i) (r : op.Res) :
    (f.sees i op r h).since j = f.since j := by
  unfold sees
  cases op.looksAt with
  | none => rfl
  | some c => exact Function.update_of_ne hj ..

theorem sees_since_unlooked (i : Thread) (hop : op.looksAt = none) (r : op.Res) :
    (f.sees i op r h).since i = f.since i := by
  simp only [sees, hop]

theorem sees_since_looked (i : Thread) (hop : op.looksAt = some c) (r : op.Res) :
    (f.sees i op r h).since i = f.epochAfter op h c := by
  simp only [sees, hop, Function.update_self]

theorem epoch_le_epochAfter (op : HubOp) (h : Hub) (f : FloorHistory) (c : ChannelID) :
    f.epoch c ≤ f.epochAfter op h c := by
  unfold epochAfter
  split_ifs <;> omega

/-- An epoch either goes on with its holder or ends. -/
theorem epochAfter_cases (op : HubOp) (h : Hub) (f : FloorHistory) (c : ChannelID) :
    (f.epochAfter op h c = f.epoch c ∧ (op.run h).2.holder c = h.holder c) ∨
      (f.epochAfter op h c = f.epoch c + 1 ∧ (op.run h).2.holder c ≠ h.holder c) := by
  unfold epochAfter
  split_ifs with heq
  · exact Or.inl ⟨rfl, heq⟩
  · exact Or.inr ⟨rfl, heq⟩

theorem sees_holderAt_now (i : Thread) (r : op.Res) :
    (f.sees i op r h).holderAt c (f.epochAfter op h c) = (op.run h).2.holder c :=
  Function.update_self ..

theorem sees_holderAt_past (i : Thread) (r : op.Res)
    (hcurrent : f.holderAt c (f.epoch c) = h.holder c) {e : ℕ} (he : e ≤ f.epoch c) :
    (f.sees i op r h).holderAt c e = f.holderAt c e := by
  by_cases hnow : e = f.epochAfter op h c
  · rw [hnow, sees_holderAt_now]
    rcases epochAfter_cases op h f c with ⟨hep, hho⟩ | ⟨hep, _⟩
    · rw [hep, hho, hcurrent]
    · omega
  · exact Function.update_of_ne hnow ..

/-- The handlers keep to the floor protocol, and each believes what was true of its floor when
it last looked. -/
structure Sound (can : (op : HubOp) → op.Res → Prop) (h : Hub) (task : Thread → HubProg Unit)
    (f : FloorHistory) : Prop where
  follows : ∀ i, KeepsFloor can i (f.stance i) .fresh (task i)
  busyAgrees : h.BusyAgrees
  current : ∀ c, f.holderAt c (f.epoch c) = h.holder c
  since_le : ∀ i c, (f.stance i).channel = some c → f.since i ≤ f.epoch c
  believes : ∀ i c, (f.stance i).channel = some c →
    (f.stance i).Believes (f.holderAt c (f.since i))

variable {can : (op : HubOp) → op.Res → Prop} {task : Thread → HubProg Unit}

theorem Sound.call {i : Thread} {k : op.Res → HubProg Unit} {task' : Thread → HubProg Unit}
    (hs : Sound can h task f) (hi : task i = .call op k) (hcan : can op (op.run h).1)
    (hi' : task' i = k (op.run h).1) (hothers : ∀ j, j ≠ i → task' j = task j) :
    Sound can (op.run h).2 task' (f.sees i op (op.run h).1 h) := by
  have hfollows := hs.follows i
  rw [hi] at hfollows
  obtain ⟨hok, hnext⟩ := hfollows
  have hgrows := epoch_le_epochAfter op h f
  -- the call adds at most one epoch, so what was true of the earlier ones stays true
  have hpast : ∀ {c : ChannelID} {e : ℕ}, e ≤ f.epoch c →
      (f.sees i op (op.run h).1 h).holderAt c e = f.holderAt c e :=
    fun {c} _ he => sees_holderAt_past i _ (hs.current c) he
  refine ⟨fun j => ?_, HubOp.busyAgrees_run hs.busyAgrees op,
    fun c => sees_holderAt_now i (op.run h).1, fun j c hc => ?_, fun j c hc => ?_⟩
  · by_cases hj : j = i
    · subst hj
      rw [hi', sees_stance_self]
      exact hnext _ hcan
    · rw [hothers j hj, sees_stance_of_ne hj]
      exact hs.follows j
  · rw [sees_epoch]
    by_cases hj : j = i
    · subst hj
      rw [sees_stance_self] at hc
      cases hop : op.looksAt with
      | none =>
        rw [sees_since_unlooked j hop]
        rcases Stance.next_channel hop (op.run h).1 with hnone | ⟨hsame, _⟩
        · rw [hnone] at hc
          cases hc
        · rw [hsame] at hc
          exact (hs.since_le j c hc).trans (hgrows c)
      | some c' =>
        rw [sees_since_looked j hop]
        rcases Stance.believes_looked hs.busyAgrees hok hop with hnone | ⟨hsome, _⟩
        · rw [hnone] at hc
          cases hc
        · rw [hsome] at hc
          obtain rfl := Option.some.inj hc
          exact le_rfl
    · rw [sees_since_of_ne hj]
      rw [sees_stance_of_ne hj] at hc
      exact (hs.since_le j c hc).trans (hgrows c)
  · by_cases hj : j = i
    · subst hj
      rw [sees_stance_self] at hc ⊢
      cases hop : op.looksAt with
      | none =>
        rw [sees_since_unlooked j hop]
        rcases Stance.next_channel hop (op.run h).1 with hnone | ⟨hsame, hkeeps⟩
        · rw [hnone] at hc
          cases hc
        · rw [hsame] at hc
          rw [hpast (hs.since_le j c hc)]
          exact hkeeps _ (hs.believes j c hc)
      | some c' =>
        rw [sees_since_looked j hop]
        rcases Stance.believes_looked hs.busyAgrees hok hop with hnone | ⟨hsome, hbelieves⟩
        · rw [hnone] at hc
          cases hc
        · rw [hsome] at hc
          obtain rfl := Option.some.inj hc
          rw [sees_holderAt_now]
          exact hbelieves
    · rw [sees_stance_of_ne hj] at hc ⊢
      rw [sees_since_of_ne hj, hpast (hs.since_le j c hc)]
      exact hs.believes j c hc

theorem Sound.starts {r : Request} {task' : Thread → HubProg Unit} (hs : Sound can h task f)
    (hr : task' r.thread = r.prog) (hothers : ∀ j, j ≠ r.thread → task' j = task j) :
    Sound can h task' (f.starts r) := by
  have hself : (f.starts r).stance r.thread = r.stance := Function.update_self ..
  have hother : ∀ {j}, j ≠ r.thread → (f.starts r).stance j = f.stance j :=
    fun hj => Function.update_of_ne hj ..
  -- a handler starts with no belief about any floor
  have hquiet : r.stance.channel = none :=
    r.stance_rule (P := fun s => s.channel = none) rfl (fun _ => rfl) (fun _ => rfl) fun _ => rfl
  refine ⟨fun j => ?_, hs.busyAgrees, hs.current, fun j c hc => ?_, fun j c hc => ?_⟩
  · by_cases hj : j = r.thread
    · subst hj
      rw [hr, hself]
      exact keepsFloor_prog r
    · rw [hothers j hj, hother hj]
      exact hs.follows j
  · by_cases hj : j = r.thread
    · subst hj
      rw [hself, hquiet] at hc
      cases hc
    · rw [hother hj] at hc
      exact hs.since_le j c hc
  · by_cases hj : j = r.thread
    · subst hj
      rw [hself, hquiet] at hc
      cases hc
    · rw [hother hj] at hc ⊢
      exact hs.believes j c hc

/-- A change of the hub that no floor takes part in. -/
theorem Sound.environment {h' : Hub} (hs : Sound can h task f) (hb : h'.BusyAgrees)
    (hh : ∀ c, h'.holder c = h.holder c) : Sound can h' task f where
  follows := hs.follows
  busyAgrees := hb
  current := fun c => (hs.current c).trans (hh c).symm
  since_le := hs.since_le
  believes := hs.believes

end FloorHistory

namespace Hub

theorem fireTimer_holder {ch : ChannelID} {timer : ℕ} {h h' : Hub}
    (hf : h.fireTimer ch timer = some h') (c : ChannelID) : h'.holder c = h.holder c := by
  obtain ⟨chan, chan', hc, hfire, rfl⟩ := fireTimer_eq hf
  obtain ⟨τ, _, _, _, rfl⟩ := Channel.fireTimer_eq hfire
  by_cases heq : c = ch
  · rw [heq, holder_of_lookup hc, holder, AList.lookup_insert]
    rfl
  · rw [holder, holder]
    exact congrArg (fun o => Option.bind o _) (AList.lookup_insert_ne heq)

theorem fireTimer_busyAgrees {ch : ChannelID} {timer : ℕ} {h h' : Hub} (hb : h.BusyAgrees)
    (hf : h.fireTimer ch timer = some h') : h'.BusyAgrees := by
  obtain ⟨chan, chan', hc, hfire, rfl⟩ := fireTimer_eq hf
  obtain ⟨τ, _, _, _, rfl⟩ := Channel.fireTimer_eq hfire
  intro c chan'' hc''
  by_cases heq : c = ch
  · rw [heq] at hc''
    rw [AList.lookup_insert] at hc''
    rw [← Option.some.inj hc'']
    exact hb ch chan hc
  · rw [AList.lookup_insert_ne heq] at hc''
    exact hb c chan'' hc''

end Hub

/-- The observer keeps a floor history in its state. -/
structure Observer.Tracks {γ : Type} (o : Observer γ) (floors : γ → FloorHistory) : Prop where
  starts : ∀ r g, floors (o.starts r g) = (floors g).starts r
  sees : ∀ i op r h g, floors (o.sees i op r h g) = (floors g).sees i op r h

/-- Every step of the server keeps the floor history sound, if the answers its calls get are
among those the protocol reckons with. -/
theorem FloorHistory.sound_step {γ : Type} {o : Observer γ} {floors : γ → FloorHistory}
    (ho : o.Tracks floors) {can : (op : HubOp) → op.Res → Prop} {s t : Server γ} {e : ServerEvent}
    (hcan : ∀ op, can op (op.run s.hub).1) (hs : Sound can s.hub s.pool.task (floors s.history))
    (h : serverStep o s e = some t) : Sound can t.hub t.pool.task (floors t.history) := by
  cases e with
  | serve r =>
    obtain ⟨_, _, _, hshared, htask, hothers⟩ := serverStep_serve h
    rw [Server.hub, Server.history, hshared, ho.starts]
    exact hs.starts htask hothers
  | advance i =>
    obtain ⟨op, k, hk, _, hhub, hhist, htask, hothers⟩ := serverStep_advance h
    rw [hhub, hhist, ho.sees]
    exact hs.call hk (hcan op) htask hothers
  | timerFires ch timer =>
    obtain ⟨hf, _, hhist, htask⟩ := serverStep_timerFires h
    rw [hhist, htask]
    exact hs.environment (Hub.fireTimer_busyAgrees hs.busyAgrees hf) (Hub.fireTimer_holder hf)
  | tick d =>
    obtain ⟨hhub, _, hhist, htask⟩ := serverStep_tick h
    rw [hhist, htask, hhub]
    exact hs.environment hs.busyAgrees fun _ => rfl

/-- A step moves no thread but its own. -/
theorem FloorHistory.stance_of_unmoved {γ : Type} {o : Observer γ} {floors : γ → FloorHistory}
    (ho : o.Tracks floors) {s t : Server γ} {e : ServerEvent} {j : Thread}
    (h : serverStep o s e = some t) (hj : e.thread ≠ some j) :
    (floors t.history).stance j = (floors s.history).stance j := by
  cases e with
  | serve r =>
    obtain ⟨_, _, _, hshared, _⟩ := serverStep_serve h
    rw [Server.history, hshared, ho.starts]
    exact Function.update_of_ne (fun heq => hj (congrArg some heq.symm)) ..
  | advance i =>
    obtain ⟨_, _, _, _, _, hhist, _⟩ := serverStep_advance h
    rw [hhist, ho.sees]
    exact sees_stance_of_ne (fun heq => hj (congrArg some heq.symm)) _
  | timerFires ch timer =>
    obtain ⟨_, _, hhist, _⟩ := serverStep_timerFires h
    rw [hhist]
  | tick d =>
    obtain ⟨_, _, hhist, _⟩ := serverStep_tick h
    rw [hhist]

/-- The observer that keeps nothing but the floor history. -/
def floorObserver : Observer FloorHistory where
  starts := FloorHistory.starts
  sees := FloorHistory.sees

theorem floorObserver_tracks : floorObserver.Tracks id where
  starts := fun _ _ => rfl
  sees := fun _ _ _ _ _ => rfl

theorem newHub_channel (cfg : Config) (recorder : Option AudioRecorder) (roipRelay : Bool)
    (heap : Clients) (now : ℤ) {ch : ChannelID} {c : Channel}
    (hc : (newHub cfg recorder roipRelay heap now).channels.lookup ch = some c) :
    c.activeSpeaker = none ∧ c.isBusy = false := by
  obtain ⟨d, _, _, rfl⟩ := lookup_defaultChannelMap cfg hc
  exact ⟨rfl, rfl⟩

theorem newHub_holder (cfg : Config) (recorder : Option AudioRecorder) (roipRelay : Bool)
    (heap : Clients) (now : ℤ) (ch : ChannelID) :
    (newHub cfg recorder roipRelay heap now).holder ch = none := by
  rw [Hub.holder]
  cases hc : (newHub cfg recorder roipRelay heap now).channels.lookup ch with
  | none => rfl
  | some c => exact (newHub_channel cfg recorder roipRelay heap now hc).1

theorem newHub_busyAgrees (cfg : Config) (recorder : Option AudioRecorder) (roipRelay : Bool)
    (heap : Clients) (now : ℤ) : (newHub cfg recorder roipRelay heap now).BusyAgrees := by
  intro ch c hc
  obtain ⟨hspk, hbusy⟩ := newHub_channel cfg recorder roipRelay heap now hc
  simp [Channel.BusyAgrees, hspk, hbusy]

/-- No step of the server, whichever threads take it, parts the two fields of a floor. -/
theorem busyAgrees_step {γ : Type} {o : Observer γ} {s t : Server γ} {e : ServerEvent}
    (hs : s.hub.BusyAgrees) (h : serverStep o s e = some t) : t.hub.BusyAgrees := by
  cases e with
  | serve r => rwa [(serverStep_starts h).1]
  | advance i =>
    obtain ⟨op, _, _, _, hhub, _⟩ := serverStep_advance h
    rw [hhub]
    exact HubOp.busyAgrees_run hs op
  | timerFires ch timer => exact Hub.fireTimer_busyAgrees hs (serverStep_timerFires h).1
  | tick d =>
    rw [(serverStep_tick h).1]
    exact hs

/-- A new server has a sound floor history. -/
theorem FloorHistory.sound_init (can : (op : HubOp) → op.Res → Prop) (cfg : Config)
    (recorder : Option AudioRecorder) (roipRelay : Bool) (heap : Clients) (now : ℤ) :
    Sound can (newHub cfg recorder roipRelay heap now) (fun _ => .ret ()) FloorHistory.init where
  follows := fun _ => rfl
  busyAgrees := newHub_busyAgrees cfg recorder roipRelay heap now
  current := fun c => (newHub_holder cfg recorder roipRelay heap now c).symm
  since_le := fun i c hc => by cases hc
  believes := fun i c hc => by cases hc

end TwoWayRadio

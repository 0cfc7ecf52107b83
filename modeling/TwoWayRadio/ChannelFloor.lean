import TwoWayRadio.Channel
import TwoWayRadio.Runs

/-! Floor arbitration: the channel as a state machine over the calls of any clients,
and what each call does to the holder of the floor. -/
namespace TwoWayRadio
open Transition

namespace Channel

@[simp] theorem cancelTOT_activeSpeaker (c : Channel) :
    c.cancelTOT.activeSpeaker = c.activeSpeaker := by
  unfold cancelTOT
  split <;> rfl

@[simp] theorem cancelTOT_isBusy (c : Channel) : c.cancelTOT.isBusy = c.isBusy := by
  unfold cancelTOT
  split <;> rfl

@[simp] theorem cancelTOT_totDuration (c : Channel) :
    c.cancelTOT.totDuration = c.totDuration := by
  unfold cancelTOT
  split <;> rfl

@[simp] theorem cancelTOT_subscribers (c : Channel) :
    c.cancelTOT.subscribers = c.subscribers := by
  unfold cancelTOT
  split <;> rfl

@[simp] theorem cancelTOT_definition (c : Channel) :
    c.cancelTOT.definition = c.definition := by
  unfold cancelTOT
  split <;> rfl

@[simp] theorem cancelTOT_totTimer (c : Channel) : c.cancelTOT.totTimer = none := by
  unfold cancelTOT
  split
  · rfl
  · assumption

@[simp] theorem armTOT_activeSpeaker (c : Channel) :
    c.armTOT.activeSpeaker = c.activeSpeaker := by
  unfold armTOT
  split <;> rfl

@[simp] theorem armTOT_isBusy (c : Channel) : c.armTOT.isBusy = c.isBusy := by
  unfold armTOT
  split <;> rfl

@[simp] theorem armTOT_totDuration (c : Channel) : c.armTOT.totDuration = c.totDuration := by
  unfold armTOT
  split <;> rfl

@[simp] theorem armTOT_subscribers (c : Channel) : c.armTOT.subscribers = c.subscribers := by
  unfold armTOT
  split <;> rfl

@[simp] theorem armTOT_definition (c : Channel) : c.armTOT.definition = c.definition := by
  unfold armTOT
  split <;> rfl

/-- The two fields that say whether the floor is held agree. -/
def BusyAgrees (c : Channel) : Prop := c.isBusy = true ↔ c.activeSpeaker ≠ none

/-- The four outcomes of `RequestFloor` on a channel whose floor fields agree. -/
inductive RequestOutcome (clients : Clients) (client : ClientRef) (c : Channel) :
    FloorReply → Channel → Prop
  | fresh (h : c.activeSpeaker = none) :
      RequestOutcome clients client c ⟨true, "", "", none⟩
        { c with isBusy := true, activeSpeaker := some client }.cancelTOT.armTOT
  | held (h : c.activeSpeaker = some client) :
      RequestOutcome clients client c ⟨true, "", "", none⟩ c
  | preempts (speaker : ClientRef) (h : c.activeSpeaker = some speaker) (hne : speaker ≠ client)
      (hp : getPriority (clients speaker) < getPriority (clients client)) :
      RequestOutcome clients client c
        ⟨true, "preempted", (clients speaker).callsign, some speaker⟩
        { c.cancelTOT with activeSpeaker := some client }.armTOT
  | denied (speaker : ClientRef) (h : c.activeSpeaker = some speaker) (hne : speaker ≠ client)
      (hp : getPriority (clients client) ≤ getPriority (clients speaker)) :
      RequestOutcome clients client c
        ⟨false, "channel_busy", (clients speaker).callsign, none⟩ c

theorem requestFloor_outcome (clients : Clients) (client : ClientRef) {c : Channel}
    (hb : c.BusyAgrees) :
    RequestOutcome clients client c (c.requestFloor clients client).1
      (c.requestFloor clients client).2 := by
  unfold requestFloor
  split
  · rename_i speaker hbusy hspeaker
    by_cases heq : speaker = client
    · rw [if_pos heq]
      exact .held (heq ▸ hspeaker)
    · rw [if_neg heq]
      by_cases hp : getPriority (clients client) > getPriority (clients speaker)
      · rw [if_pos hp]
        exact .preempts speaker hspeaker heq hp
      · rw [if_neg hp]
        exact .denied speaker hspeaker heq (by omega)
  · rename_i hno
    have hidle : c.activeSpeaker = none := by
      by_contra hsome
      obtain ⟨speaker, hs⟩ := Option.ne_none_iff_exists'.mp hsome
      exact hno speaker (hb.mpr hsome) hs
    exact .fresh hidle

theorem busyAgrees_requestFloor (clients : Clients) (client : ClientRef) {c : Channel}
    (hb : c.BusyAgrees) : (c.requestFloor clients client).2.BusyAgrees := by
  generalize hr : (c.requestFloor clients client).1 = reply
  generalize hc : (c.requestFloor clients client).2 = c'
  have ho := requestFloor_outcome clients client hb
  rw [hr, hc] at ho
  cases ho with
  | fresh h => simp [BusyAgrees]
  | held h => exact hb
  | preempts speaker h hne hp =>
    have hbusy : c.isBusy = true := hb.mpr (by rw [h]; exact Option.some_ne_none speaker)
    simp [BusyAgrees, hbusy]
  | denied speaker h hne hp => exact hb

/-- After `RequestFloor` the caller holds the floor exactly when it was told so. -/
theorem requestFloor_granted_iff (clients : Clients) (client : ClientRef) {c : Channel}
    (hb : c.BusyAgrees) :
    (c.requestFloor clients client).1.granted = true ↔
      (c.requestFloor clients client).2.activeSpeaker = some client := by
  generalize hr : (c.requestFloor clients client).1 = reply
  generalize hc : (c.requestFloor clients client).2 = c'
  have ho := requestFloor_outcome clients client hb
  rw [hr, hc] at ho
  cases ho with
  | fresh h => simp
  | held h => simp [h]
  | preempts speaker h hne hp => simp
  | denied speaker h hne hp => simp [h, hne]

/-- `ReleaseFloor` either clears the floor of its caller or does nothing. -/
theorem releaseFloor_cases (client : ClientRef) (c : Channel) :
    (c.activeSpeaker = some client ∧ (c.releaseFloor client).1 = true ∧
      (c.releaseFloor client).2 = { c.cancelTOT with activeSpeaker := none, isBusy := false }) ∨
    (c.activeSpeaker ≠ some client ∧ c.releaseFloor client = (false, c)) := by
  unfold releaseFloor
  by_cases h : c.activeSpeaker = some client
  · rw [if_pos h]
    exact Or.inl ⟨h, rfl, rfl⟩
  · rw [if_neg h]
    exact Or.inr ⟨h, rfl⟩

theorem releaseFloor_subscribers (client : ClientRef) (c : Channel) :
    (c.releaseFloor client).2.subscribers = c.subscribers := by
  rcases c.releaseFloor_cases client with ⟨_, _, h⟩ | ⟨_, h⟩ <;> simp [h]

theorem releaseFloor_speaker {client x : ClientRef} {c : Channel}
    (h : (c.releaseFloor client).2.activeSpeaker = some x) : c.activeSpeaker = some x := by
  rcases c.releaseFloor_cases client with ⟨_, _, heq⟩ | ⟨_, heq⟩
  · rw [heq] at h
    cases h
  · rwa [heq] at h

/-- `RemoveSubscriber` releases the floor exactly as `ReleaseFloor` does, after the
unsubscription. -/
theorem removeSubscriber_eq (client : ClientRef) (c : Channel) :
    c.removeSubscriber client =
      { c with subscribers := c.subscribers.erase client }.releaseFloor client := rfl

theorem busyAgrees_releaseFloor (client : ClientRef) {c : Channel} (hb : c.BusyAgrees) :
    (c.releaseFloor client).2.BusyAgrees := by
  rcases c.releaseFloor_cases client with ⟨_, _, h⟩ | ⟨_, h⟩
  · rw [h]
    simp [BusyAgrees]
  · rw [h]
    exact hb

theorem fireTimer_eq {t : ℕ} {c c' : Channel} (h : c.fireTimer t = some c') :
    ∃ τ, c.timers[t]? = some τ ∧ τ.fired = false ∧ τ.stopped = false ∧
      c' = { c with timers := c.timers.modify t Timer.fire } := by
  unfold fireTimer at h
  split at h
  · rename_i τ hτ
    split at h
    · cases h
    · rename_i hno
      simp only [Bool.or_eq_true, not_or, Bool.not_eq_true] at hno
      exact ⟨τ, hτ, hno.1, hno.2, (Option.some.inj h).symm⟩
  · cases h

theorem runTimer_eq {t : ℕ} {c : Channel} {r : Option ClientRef × Channel}
    (h : c.runTimer t = some r) :
    ∃ τ, c.timers[t]? = some τ ∧ τ.fired = true ∧ τ.ran = false ∧
      r = (c.activeSpeaker, { c with
        timers := c.timers.modify t Timer.run, activeSpeaker := none, isBusy := false,
        totTimer := none }) := by
  unfold runTimer at h
  split at h
  · rename_i τ hτ
    split at h
    · rename_i hyes
      simp only [Bool.and_eq_true, Bool.not_eq_true'] at hyes
      exact ⟨τ, hτ, hyes.1, hyes.2, (Option.some.inj h).symm⟩
    · cases h
  · cases h

/-- No call redefines its channel. -/
theorem requestFloor_definition (clients : Clients) (client : ClientRef) (c : Channel) :
    (c.requestFloor clients client).2.definition = c.definition := by
  unfold requestFloor
  split
  · split_ifs <;> simp
  · simp

theorem releaseFloor_definition (client : ClientRef) (c : Channel) :
    (c.releaseFloor client).2.definition = c.definition := by
  rcases c.releaseFloor_cases client with ⟨_, _, h⟩ | ⟨_, h⟩ <;> simp [h]

theorem runTimer_definition (t : ℕ) (c : Channel) :
    ((c.runTimer t).getD (none, c)).2.definition = c.definition := by
  cases hr : c.runTimer t with
  | none => rfl
  | some r =>
    obtain ⟨_, _, _, _, rfl⟩ := runTimer_eq hr
    rfl

/-- The critical section of `handleTOT` as the hub makes it, which does nothing before the
timer fires. -/
theorem runTimer_getD (t : ℕ) (c : Channel) :
    (c.runTimer t).getD (none, c) = (none, c) ∨
      ((c.runTimer t).getD (none, c)).1 = c.activeSpeaker ∧
        ((c.runTimer t).getD (none, c)).2.activeSpeaker = none ∧
        ((c.runTimer t).getD (none, c)).2.isBusy = false ∧
        ((c.runTimer t).getD (none, c)).2.subscribers = c.subscribers := by
  cases hr : c.runTimer t with
  | none => exact Or.inl rfl
  | some r =>
    obtain ⟨τ, _, _, _, rfl⟩ := runTimer_eq hr
    exact Or.inr ⟨rfl, rfl, rfl, rfl⟩

end Channel

/-- The channel together with the client fields its calls read. -/
structure FloorState where
  clients : Clients
  channel : Channel

/-- A call on the channel, the runtime firing a timer, a fired timer's handler getting the
mutex, or a client changing its own fields. -/
inductive FloorEvent
  | addSubscriber (client : ClientRef)
  | removeSubscriber (client : ClientRef)
  | requestFloor (client : ClientRef)
  | releaseFloor (client : ClientRef)
  | forceReleaseFloor
  | timerFires (t : ℕ)
  | handleTOT (t : ℕ)
  | setClient (client : ClientRef) (fields : Client)

def floorStep (s : FloorState) : FloorEvent → Option FloorState
  | .addSubscriber client => some { s with channel := s.channel.addSubscriber client }
  | .removeSubscriber client => some { s with channel := (s.channel.removeSubscriber client).2 }
  | .requestFloor client =>
    some { s with channel := (s.channel.requestFloor s.clients client).2 }
  | .releaseFloor client => some { s with channel := (s.channel.releaseFloor client).2 }
  | .forceReleaseFloor => some { s with channel := s.channel.forceReleaseFloor.2 }
  | .timerFires t => (s.channel.fireTimer t).map fun c => { s with channel := c }
  | .handleTOT t => (s.channel.runTimer t).map fun r => { s with channel := r.2 }
  | .setClient client fields =>
    some { s with clients := Function.update s.clients client fields }

def floorInit (clients : Clients) (definition : ChannelDef) (tot : ℤ) : FloorState :=
  ⟨clients, newChannel definition tot⟩

theorem floorStep_busyAgrees (s : FloorState) (e : FloorEvent) (t : FloorState)
    (hb : s.channel.BusyAgrees) (h : floorStep s e = some t) : t.channel.BusyAgrees := by
  cases e with
  | addSubscriber client =>
    cases h
    exact hb
  | removeSubscriber client =>
    cases h
    rw [Channel.removeSubscriber_eq]
    exact Channel.busyAgrees_releaseFloor client
      (c := { s.channel with subscribers := s.channel.subscribers.erase client }) hb
  | requestFloor client =>
    cases h
    exact Channel.busyAgrees_requestFloor s.clients client hb
  | releaseFloor client =>
    cases h
    exact Channel.busyAgrees_releaseFloor client hb
  | forceReleaseFloor =>
    cases h
    simp [Channel.forceReleaseFloor, Channel.BusyAgrees]
  | timerFires n =>
    obtain ⟨c, hc, rfl⟩ := Option.map_eq_some_iff.mp h
    obtain ⟨τ, _, _, _, rfl⟩ := Channel.fireTimer_eq hc
    exact hb
  | handleTOT n =>
    obtain ⟨r, hr, rfl⟩ := Option.map_eq_some_iff.mp h
    obtain ⟨τ, _, _, _, rfl⟩ := Channel.runTimer_eq hr
    simp [Channel.BusyAgrees]
  | setClient client fields =>
    cases h
    exact hb

/-- What one transition may do to the floor, in terms of the values the calls return. -/
structure FloorLaws (s : FloorState) (e : FloorEvent) (t : FloorState) : Prop where
  /-- A request is granted exactly when the caller is the holder afterwards. -/
  granted_iff : ∀ b, e = .requestFloor b →
    ((s.channel.requestFloor s.clients b).1.granted = true ↔ t.channel.activeSpeaker = some b)
  /-- The floor passes from one client to another only by a preempting request. -/
  passes : ∀ a b, s.channel.activeSpeaker = some a → t.channel.activeSpeaker = some b → b ≠ a →
    e = .requestFloor b ∧ getPriority (s.clients a) < getPriority (s.clients b) ∧
      (s.channel.requestFloor s.clients b).1.preempted = some a
  /-- A client is reported as preempted only when it has just lost the floor so. -/
  preempted : ∀ a b, e = .requestFloor b →
    (s.channel.requestFloor s.clients b).1.preempted = some a →
    s.channel.activeSpeaker = some a ∧ t.channel.activeSpeaker = some b ∧ b ≠ a
  /-- A denied request changes nothing and names the holder. -/
  denied : ∀ b, e = .requestFloor b → (s.channel.requestFloor s.clients b).1.granted = false →
    t = s ∧ ∃ a, s.channel.activeSpeaker = some a ∧
      (s.channel.requestFloor s.clients b).1.speaker = (s.clients a).callsign
  /-- Otherwise the holder loses the floor by its own release or removal, a forced release
  or a timer. -/
  loses : ∀ a, s.channel.activeSpeaker = some a → t.channel.activeSpeaker = none →
    (e = .releaseFloor a ∧ (s.channel.releaseFloor a).1 = true) ∨
    (e = .removeSubscriber a ∧ (s.channel.removeSubscriber a).1 = true) ∨
    (e = .forceReleaseFloor ∧ s.channel.forceReleaseFloor.1 = some a) ∨
    ∃ n, e = .handleTOT n
  /-- `ReleaseFloor` returns true exactly when its caller held the floor, which it then lost. -/
  released_iff : ∀ a, e = .releaseFloor a →
    ((s.channel.releaseFloor a).1 = true ↔
      s.channel.activeSpeaker = some a ∧ t.channel.activeSpeaker = none)
  /-- `RemoveSubscriber` likewise. -/
  removed_iff : ∀ a, e = .removeSubscriber a →
    ((s.channel.removeSubscriber a).1 = true ↔
      s.channel.activeSpeaker = some a ∧ t.channel.activeSpeaker = none)
  /-- `ForceReleaseFloor` returns whoever held the floor and leaves it idle. -/
  forced : e = .forceReleaseFloor →
    s.channel.forceReleaseFloor.1 = s.channel.activeSpeaker ∧ t.channel.activeSpeaker = none

/-- The calls that never take the floor from anyone leave the holder alone. -/
theorem floorLaws_of_same_holder {s t : FloorState} {e : FloorEvent}
    (h : t.channel.activeSpeaker = s.channel.activeSpeaker)
    (hreq : ∀ b, e ≠ .requestFloor b) (hrel : ∀ a, e ≠ .releaseFloor a)
    (hrem : ∀ a, e ≠ .removeSubscriber a) (hforce : e ≠ .forceReleaseFloor) :
    FloorLaws s e t where
  granted_iff b he := absurd he (hreq b)
  passes a b ha hb hne := by
    rw [h, ha] at hb
    exact absurd (Option.some.inj hb).symm hne
  preempted a b he := absurd he (hreq b)
  denied b he := absurd he (hreq b)
  loses a ha hn := by
    rw [h, ha] at hn
    cases hn
  released_iff a he := absurd he (hrel a)
  removed_iff a he := absurd he (hrem a)
  forced he := absurd he hforce

theorem floorLaws_requestFloor {s : FloorState} (hb : s.channel.BusyAgrees) (b : ClientRef) :
    FloorLaws s (.requestFloor b)
      { s with channel := (s.channel.requestFloor s.clients b).2 } := by
  have hgrant := Channel.requestFloor_granted_iff s.clients b hb
  have ho := Channel.requestFloor_outcome s.clients b hb
  generalize hr : s.channel.requestFloor s.clients b = r at ho hgrant
  obtain ⟨reply, c'⟩ := r
  dsimp only at ho hgrant
  refine ⟨?_, ?_, ?_, ?_, ?_, nofun, nofun, nofun⟩
  · rintro _ ⟨rfl⟩
    rw [hr]
    exact hgrant
  · -- only a preemption hands the floor from one holder to another
    intro a b' ha hb' hne
    dsimp only at hb'
    cases ho with
    | fresh h => rw [h] at ha; cases ha
    | held h => rw [hb'] at ha; exact absurd (Option.some.inj ha) hne
    | preempts speaker h _ hp =>
      have hab : speaker = a := Option.some.inj (h.symm.trans ha)
      have hbb : b' = b := by simpa using hb'.symm
      subst hab hbb
      exact ⟨rfl, hp, by rw [hr]⟩
    | denied speaker h _ hp => rw [hb'] at ha; exact absurd (Option.some.inj ha) hne
  · -- who is preempted held the floor and ranks lower
    rintro a _ ⟨rfl⟩ hp
    rw [hr] at hp
    dsimp only at hp
    cases ho with
    | fresh h => cases hp
    | held h => cases hp
    | preempts speaker h hne _ =>
      obtain rfl := Option.some.inj hp
      exact ⟨h, by simp, Ne.symm hne⟩
    | denied speaker h _ _ => cases hp
  · -- a denial names the speaker in the way
    rintro _ ⟨rfl⟩ hg
    rw [hr] at hg ⊢
    dsimp only at hg
    cases ho with
    | fresh h => cases hg
    | held h => cases hg
    | preempts speaker h _ _ => cases hg
    | denied speaker h _ _ => exact ⟨rfl, speaker, h, rfl⟩
  · intro a ha hn
    dsimp only at hn
    cases ho with
    | fresh h => simp at hn
    | held h => rw [hn] at h; cases h
    | preempts speaker h _ _ => simp at hn
    | denied speaker h _ _ => rw [hn] at h; cases h

/-- `ReleaseFloor` and the release inside `RemoveSubscriber` obey the same law. -/
theorem releaseFloor_law (a : ClientRef) (c : Channel) :
    ((c.releaseFloor a).1 = true ↔
      c.activeSpeaker = some a ∧ (c.releaseFloor a).2.activeSpeaker = none) ∧
    ((c.releaseFloor a).2.activeSpeaker = c.activeSpeaker ∨
      ((c.releaseFloor a).1 = true ∧ c.activeSpeaker = some a ∧
        (c.releaseFloor a).2.activeSpeaker = none)) := by
  rcases c.releaseFloor_cases a with ⟨h, h1, h2⟩ | ⟨h, he⟩
  · simp [h, h1, h2]
  · simp [he, h]

theorem floorStep_laws (s : FloorState) (e : FloorEvent) (t : FloorState)
    (hb : s.channel.BusyAgrees) (h : floorStep s e = some t) : FloorLaws s e t := by
  cases e with
  | addSubscriber client =>
    cases h
    exact floorLaws_of_same_holder rfl nofun nofun nofun nofun
  | removeSubscriber client =>
    cases h
    -- the floor is released as by `ReleaseFloor`, once the client is unsubscribed
    have hl := releaseFloor_law client
      { s.channel with subscribers := s.channel.subscribers.erase client }
    rw [← Channel.removeSubscriber_eq] at hl
    dsimp only at hl
    refine ⟨nofun, ?_, nofun, nofun, ?_, nofun, ?_, nofun⟩
    · intro a b ha hb' hne
      rw [Channel.removeSubscriber_eq] at hb'
      have hb : s.channel.activeSpeaker = some b := Channel.releaseFloor_speaker
        (c := { s.channel with subscribers := s.channel.subscribers.erase client }) hb'
      exact absurd (Option.some.inj (hb.symm.trans ha)) hne
    · intro a ha hn
      rcases hl.2 with hs | ⟨h1, ha', _⟩
      · rw [hs, ha] at hn
        cases hn
      · obtain rfl : client = a := Option.some.inj (ha'.symm.trans ha)
        exact Or.inr (Or.inl ⟨rfl, h1⟩)
    · rintro _ ⟨rfl⟩
      exact hl.1
  | requestFloor client =>
    cases h
    exact floorLaws_requestFloor hb client
  | releaseFloor client =>
    cases h
    have hl := releaseFloor_law client s.channel
    refine ⟨nofun, ?_, nofun, nofun, ?_, ?_, nofun, nofun⟩
    · intro a b ha hb' hne
      have hb := Channel.releaseFloor_speaker hb'
      exact absurd (Option.some.inj (hb.symm.trans ha)) hne
    · intro a ha hn
      rcases hl.2 with hs | ⟨h1, ha', _⟩
      · rw [hs, ha] at hn
        cases hn
      · obtain rfl : client = a := Option.some.inj (ha'.symm.trans ha)
        exact Or.inl ⟨rfl, h1⟩
    · rintro _ ⟨rfl⟩
      exact hl.1
  | forceReleaseFloor =>
    cases h
    refine ⟨nofun, ?_, nofun, nofun, ?_, nofun, nofun, ?_⟩
    · intro a b _ hb' _
      cases hb'
    · intro a ha _
      exact Or.inr (Or.inr (Or.inl ⟨rfl, ha⟩))
    · intro _
      exact ⟨rfl, rfl⟩
  | timerFires n =>
    obtain ⟨c, hc, rfl⟩ := Option.map_eq_some_iff.mp h
    -- the handler of the timer only starts to wait for the mutex
    obtain ⟨τ, _, _, _, rfl⟩ := Channel.fireTimer_eq hc
    exact floorLaws_of_same_holder rfl nofun nofun nofun nofun
  | handleTOT n =>
    obtain ⟨r, hr, rfl⟩ := Option.map_eq_some_iff.mp h
    obtain ⟨τ, _, _, _, rfl⟩ := Channel.runTimer_eq hr
    refine ⟨nofun, ?_, nofun, nofun, ?_, nofun, nofun, nofun⟩
    · intro a b _ hb' _
      cases hb'
    · intro a _ _
      exact Or.inr (Or.inr (Or.inr ⟨n, rfl⟩))
  | setClient client fields =>
    cases h
    exact floorLaws_of_same_holder rfl nofun nofun nofun nofun

/-- Floor arbitration: in every state that any sequence of calls and timer events reaches,
`isBusy` holds exactly when there is a speaker, and every further transition obeys the laws. -/
theorem floor_arbitration (clients : Clients) (definition : ChannelDef) (tot : ℤ)
    (es : List FloorEvent) (s : FloorState)
    (r : Run floorStep (floorInit clients definition tot) es s) :
    (s.channel.isBusy = true ↔ s.channel.activeSpeaker ≠ none) ∧
      ∀ e t, floorStep s e = some t → FloorLaws s e t := by
  have hb : s.channel.BusyAgrees :=
    r.invariant (I := fun s => s.channel.BusyAgrees) floorStep_busyAgrees
      (by simp [Channel.BusyAgrees, floorInit, newChannel])
  exact ⟨hb, fun e t h => floorStep_laws s e t hb h⟩

def sampleClients : Clients := fun n =>
  if n = 0 then { id := "unit1", callsign := "PATROL-01", role := "Field Unit" }
  else { id := "disp1", callsign := "DISPATCH-CENTRAL", role := "Dispatcher" }

/-- A field unit takes the floor and a dispatcher preempts it. -/
theorem floor_arbitration_preempts :
    ∃ s, Run floorStep (floorInit sampleClients { id := 3, name := "TACTICAL 1" } (5 * second))
        [.requestFloor 0, .requestFloor 1] s ∧
      s.channel.activeSpeaker = some 1 ∧
      (s.channel.isBusy = true ↔ s.channel.activeSpeaker ≠ none) ∧
      ∀ e t, floorStep s e = some t → FloorLaws s e t := by
  refine ⟨_, (run_iff_foldlM _ _ _).mpr rfl, by decide, ?_⟩
  exact floor_arbitration sampleClients { id := 3, name := "TACTICAL 1" } (5 * second)
    [.requestFloor 0, .requestFloor 1] _ ((run_iff_foldlM _ _ _).mpr rfl)

end TwoWayRadio

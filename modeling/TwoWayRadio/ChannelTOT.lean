import TwoWayRadio.ChannelFloor

/-! Time-out timers: which timer belongs to which hold of the floor. -/
namespace TwoWayRadio
open Transition

/-- Position `u` holds a timer that is armed, not stopped and whose handler has not run. -/
def LiveTimer (timers : List Timer) (u : ℕ) : Prop :=
  ∃ τ, timers[u]? = some τ ∧ τ.live = true

theorem liveTimer_modify (timers : List Timer) (t u : ℕ) (f : Timer → Timer) :
    LiveTimer (timers.modify t f) u ↔
      ∃ τ, timers[u]? = some τ ∧ (if t = u then f τ else τ).live = true := by
  unfold LiveTimer
  rw [List.getElem?_modify]
  constructor
  · rintro ⟨τ, hτ, hl⟩
    obtain ⟨ρ, hρ, rfl⟩ := Option.map_eq_some_iff.mp hτ
    exact ⟨ρ, hρ, hl⟩
  · rintro ⟨ρ, hρ, hl⟩
    exact ⟨_, Option.map_eq_some_iff.mpr ⟨ρ, hρ, rfl⟩, hl⟩

/-- A change after which a timer is dead takes just that timer off the live ones. -/
theorem liveTimer_modify_dead (timers : List Timer) (t u : ℕ) (f : Timer → Timer)
    (hf : ∀ τ, (f τ).live = false) :
    LiveTimer (timers.modify t f) u ↔ LiveTimer timers u ∧ u ≠ t := by
  rw [liveTimer_modify]
  by_cases h : t = u
  · simp [h, hf]
  · simp [h, LiveTimer, Ne.symm h]

theorem liveTimer_stop (timers : List Timer) (t u : ℕ) :
    LiveTimer (timers.modify t Timer.stop) u ↔ LiveTimer timers u ∧ u ≠ t :=
  liveTimer_modify_dead timers t u Timer.stop (fun τ => by simp [Timer.stop, Timer.live])

theorem liveTimer_run (timers : List Timer) (t u : ℕ) :
    LiveTimer (timers.modify t Timer.run) u ↔ LiveTimer timers u ∧ u ≠ t :=
  liveTimer_modify_dead timers t u Timer.run (fun τ => by simp [Timer.run, Timer.live])

theorem liveTimer_fire (timers : List Timer) (t u : ℕ) :
    LiveTimer (timers.modify t Timer.fire) u ↔ LiveTimer timers u := by
  rw [liveTimer_modify]
  have hf (τ : Timer) : (if t = u then τ.fire else τ).live = τ.live := by split <;> rfl
  simp only [hf, LiveTimer]

theorem liveTimer_append (timers : List Timer) (u : ℕ) :
    LiveTimer (timers ++ [Timer.armed]) u ↔ LiveTimer timers u ∨ u = timers.length := by
  unfold LiveTimer
  rcases lt_trichotomy u timers.length with h | h | h
  · simp [List.getElem?_append_left h, Nat.ne_of_lt h]
  · simp [h, Timer.live, Timer.armed]
  · have hn : (timers ++ [Timer.armed])[u]? = none := by
      rw [List.getElem?_eq_none_iff, List.length_append, List.length_singleton]
      omega
    have hn' : timers[u]? = none := List.getElem?_eq_none_iff.mpr h.le
    simp only [hn, hn', Nat.ne_of_gt h, or_false]

namespace Channel

/-- A held floor has exactly one live timer, the one `totTimer` points to; an idle floor
has none. -/
structure TimersWatched (c : Channel) : Prop where
  held : c.activeSpeaker ≠ none → ∃ t, c.totTimer = some t ∧ ∀ u, LiveTimer c.timers u ↔ u = t
  idle : c.activeSpeaker = none → ∀ u, ¬ LiveTimer c.timers u

theorem cancelTOT_timers (c : Channel) :
    c.cancelTOT.timers =
      c.totTimer.elim c.timers (fun t => c.timers.modify t Timer.stop) := by
  unfold cancelTOT
  split
  · rename_i t ht
    rw [ht]
    rfl
  · rename_i hn
    rw [hn]
    rfl

theorem length_timers_cancelTOT (c : Channel) :
    c.cancelTOT.timers.length = c.timers.length := by
  unfold cancelTOT
  split
  · exact List.length_modify ..
  · rfl

/-- Whoever held the floor, `cancelTOT` leaves no live timer. -/
theorem TimersWatched.cancelTOT_dead {c : Channel} (hw : c.TimersWatched) (u : ℕ) :
    ¬ LiveTimer c.cancelTOT.timers u := by
  intro hlive
  unfold cancelTOT at hlive
  by_cases hidle : c.activeSpeaker = none
  · split at hlive
    · exact hw.idle hidle u ((liveTimer_stop _ _ _).mp hlive).1
    · exact hw.idle hidle u hlive
  · obtain ⟨t, ht, honly⟩ := hw.held hidle
    rw [ht] at hlive
    have hl := (liveTimer_stop _ _ _).mp hlive
    exact hl.2 ((honly u).mp hl.1)

/-- A grant on a channel without live timers arms exactly one. -/
theorem timersWatched_armTOT {c : Channel} (hpos : 0 < c.totDuration)
    (hspeaker : c.activeSpeaker ≠ none) (hdead : ∀ u, ¬ LiveTimer c.timers u) :
    c.armTOT.TimersWatched ∧ c.armTOT.totTimer = some c.timers.length ∧
      c.armTOT.timers.length = c.timers.length + 1 := by
  have he : c.armTOT =
      { c with timers := c.timers ++ [Timer.armed], totTimer := some c.timers.length } := by
    unfold armTOT
    rw [if_pos hpos]
  rw [he]
  refine ⟨⟨fun _ => ⟨c.timers.length, rfl, fun u => ?_⟩, fun h => absurd h hspeaker⟩, rfl, ?_⟩
  · rw [liveTimer_append]
    exact ⟨fun h => h.resolve_left (hdead u), Or.inr⟩
  · simp

/-- Clearing the floor after `cancelTOT` leaves an idle floor without timers. -/
theorem TimersWatched.released {c : Channel} (hw : c.TimersWatched) :
    TimersWatched { c.cancelTOT with activeSpeaker := none, isBusy := false } where
  held h := absurd rfl h
  idle _ := hw.cancelTOT_dead

end Channel

/-- The channel's state with the timer that the grant of the current hold armed. The code
keeps no such record: it is here to say which hold a timer belongs to. -/
structure WatchedState where
  floor : FloorState
  armedBy : Option ℕ

/-- A step after which somebody else holds the floor began a hold; the timer of that hold
is the one the step started. -/
def watch (s : FloorState) (armedBy : Option ℕ) (t : FloorState) : Option ℕ :=
  if t.channel.activeSpeaker = s.channel.activeSpeaker then armedBy
  else if t.channel.activeSpeaker ≠ none ∧ s.channel.timers.length < t.channel.timers.length then
    some s.channel.timers.length
  else none

def watchedStep (s : WatchedState) (e : FloorEvent) : Option WatchedState :=
  (floorStep s.floor e).map fun t => ⟨t, watch s.floor s.armedBy t⟩

def watchedInit (clients : Clients) (definition : ChannelDef) (tot : ℤ) : WatchedState :=
  ⟨floorInit clients definition tot, none⟩

/-- A handler that clears the floor clears the hold whose grant armed its timer. -/
def ExpiresOwnHold (s : WatchedState) (e : FloorEvent) : Prop :=
  ∀ t, e = .handleTOT t → s.floor.channel.activeSpeaker ≠ none → s.armedBy = some t

/-- Ownership of time-outs along a run: in every state it visits the live timers are as they
should be, and every expiry clears its own hold. -/
def TOTOwnership (s : WatchedState) (es : List FloorEvent) : Prop :=
  Guarded watchedStep (fun s e => s.floor.channel.TimersWatched ∧ ExpiresOwnHold s e) s es ∧
    ∀ u, Run watchedStep s es u → u.floor.channel.TimersWatched

/-- No handler of a stopped timer gets the mutex while the floor is held. -/
def NoStaleExpiry (s : WatchedState) (e : FloorEvent) : Prop :=
  ∀ t, e = .handleTOT t → s.floor.channel.activeSpeaker ≠ none →
    s.floor.channel.totTimer = some t

structure WatchInvariant (s : WatchedState) : Prop where
  busy : s.floor.channel.BusyAgrees
  duration : 0 < s.floor.channel.totDuration
  timers : s.floor.channel.TimersWatched
  armed : s.floor.channel.activeSpeaker ≠ none → s.armedBy = s.floor.channel.totTimer

/-- A step that leaves the holder and the live timers alone keeps the invariant. -/
theorem watchInvariant_frame {s : WatchedState} (hi : WatchInvariant s) {t : FloorState}
    (hspeaker : t.channel.activeSpeaker = s.floor.channel.activeSpeaker)
    (hbusy : t.channel.isBusy = s.floor.channel.isBusy)
    (hduration : t.channel.totDuration = s.floor.channel.totDuration)
    (htimer : t.channel.totTimer = s.floor.channel.totTimer)
    (hlive : ∀ u, LiveTimer t.channel.timers u ↔ LiveTimer s.floor.channel.timers u) :
    WatchInvariant ⟨t, watch s.floor s.armedBy t⟩ := by
  have hwatch : watch s.floor s.armedBy t = s.armedBy := if_pos hspeaker
  rw [hwatch]
  refine ⟨?_, ?_, ⟨fun hs => ?_, fun hs u => ?_⟩, fun hs => ?_⟩
  · have hb := hi.busy
    unfold Channel.BusyAgrees at hb ⊢
    rw [hbusy, hspeaker]
    exact hb
  · rw [hduration]
    exact hi.duration
  · obtain ⟨n, hn, honly⟩ := hi.timers.held (hspeaker ▸ hs)
    exact ⟨n, htimer.trans hn, fun u => (hlive u).trans (honly u)⟩
  · rw [hlive]
    exact hi.timers.idle (hspeaker ▸ hs) u
  · exact (hi.armed (hspeaker ▸ hs)).trans htimer.symm

/-- A grant on a channel whose timers are dead starts a hold with a timer of its own. -/
theorem watchInvariant_grant {s : WatchedState} {c : Channel} (client : ClientRef)
    (hbusy : c.isBusy = true) (hspeaker : c.activeSpeaker = some client)
    (hne : s.floor.channel.activeSpeaker ≠ some client) (hpos : 0 < c.totDuration)
    (hlen : c.timers.length = s.floor.channel.timers.length)
    (hdead : ∀ u, ¬ LiveTimer c.timers u) :
    WatchInvariant ⟨{ s.floor with channel := c.armTOT },
      watch s.floor s.armedBy { s.floor with channel := c.armTOT }⟩ := by
  have hsome : c.activeSpeaker ≠ none := by rw [hspeaker]; exact Option.some_ne_none client
  obtain ⟨hw, htimer, hgrew⟩ := Channel.timersWatched_armTOT hpos hsome hdead
  refine ⟨?_, by simpa using hpos, hw, fun _ => ?_⟩
  · simp [Channel.BusyAgrees, hbusy, hsome]
  · have hdiff : c.armTOT.activeSpeaker ≠ s.floor.channel.activeSpeaker := by
      rw [Channel.armTOT_activeSpeaker, hspeaker]
      exact Ne.symm hne
    have hgrow : s.floor.channel.timers.length < c.armTOT.timers.length := by omega
    simp only [watch]
    rw [if_neg hdiff, if_pos ⟨by simpa using hsome, hgrow⟩, htimer, hlen]

theorem watchInvariant_released {s : WatchedState} {c : Channel}
    (hw : c.TimersWatched) (hpos : 0 < c.totDuration) (armedBy : Option ℕ) :
    WatchInvariant ⟨{ s.floor with
      channel := { c.cancelTOT with activeSpeaker := none, isBusy := false } }, armedBy⟩ where
  busy := by simp [Channel.BusyAgrees]
  duration := by simpa using hpos
  timers := hw.released
  armed h := absurd rfl h

/-- The release shared by `ReleaseFloor` and `RemoveSubscriber`; `c` differs from the
channel before the call at most in its subscribers. -/
theorem watchInvariant_releaseFloor {s : WatchedState} (hi : WatchInvariant s) {c : Channel}
    (client : ClientRef) (hc : c.activeSpeaker = s.floor.channel.activeSpeaker)
    (hbusy : c.isBusy = s.floor.channel.isBusy)
    (hduration : c.totDuration = s.floor.channel.totDuration)
    (htimer : c.totTimer = s.floor.channel.totTimer)
    (htimers : c.timers = s.floor.channel.timers) :
    WatchInvariant ⟨{ s.floor with channel := (c.releaseFloor client).2 },
      watch s.floor s.armedBy { s.floor with channel := (c.releaseFloor client).2 }⟩ := by
  rcases c.releaseFloor_cases client with ⟨_, _, h⟩ | ⟨_, h⟩
  · have hw : c.TimersWatched :=
      ⟨fun hs => by rw [htimer, htimers]; exact hi.timers.held (hc ▸ hs),
        fun hs => by rw [htimers]; exact hi.timers.idle (hc ▸ hs)⟩
    rw [h]
    exact watchInvariant_released hw (hduration ▸ hi.duration) _
  · rw [h]
    exact watchInvariant_frame hi hc hbusy hduration htimer (fun u => by rw [htimers])

theorem watchInvariant_step (s : WatchedState) (e : FloorEvent) (t : WatchedState)
    (hi : WatchInvariant s) (hfresh : NoStaleExpiry s e) (h : watchedStep s e = some t) :
    WatchInvariant t := by
  obtain ⟨f, hf, rfl⟩ := Option.map_eq_some_iff.mp h
  cases e with
  | addSubscriber client =>
    cases hf
    exact watchInvariant_frame hi rfl rfl rfl rfl (fun _ => Iff.rfl)
  | removeSubscriber client =>
    cases hf
    rw [Channel.removeSubscriber_eq]
    exact watchInvariant_releaseFloor hi client rfl rfl rfl rfl rfl
  | requestFloor client =>
    cases hf
    have ho := Channel.requestFloor_outcome s.floor.clients client hi.busy
    generalize s.floor.channel.requestFloor s.floor.clients client = r at ho ⊢
    obtain ⟨reply, c'⟩ := r
    dsimp only at ho ⊢
    cases ho with
    -- an idle floor has no live timer, so the new one is the only one
    | fresh hidle =>
      refine watchInvariant_grant client (by simp) (by simp) (by simp [hidle])
        (by simpa using hi.duration) (Channel.length_timers_cancelTOT _) ?_
      simpa only [Channel.cancelTOT_timers] using hi.timers.cancelTOT_dead
    | held hspeaker =>
      exact watchInvariant_frame hi rfl rfl rfl rfl (fun _ => Iff.rfl)
    | preempts speaker hspeaker hne hp =>
      have hbusy : s.floor.channel.isBusy = true :=
        hi.busy.mpr (by rw [hspeaker]; exact Option.some_ne_none speaker)
      refine watchInvariant_grant client (by simpa using hbusy) rfl
        (by simpa [hspeaker] using hne) (by simpa using hi.duration)
        (Channel.length_timers_cancelTOT _) ?_
      exact hi.timers.cancelTOT_dead
    | denied speaker hspeaker hne hp =>
      exact watchInvariant_frame hi rfl rfl rfl rfl (fun _ => Iff.rfl)
  | releaseFloor client =>
    cases hf
    exact watchInvariant_releaseFloor hi client rfl rfl rfl rfl rfl
  | forceReleaseFloor =>
    cases hf
    exact watchInvariant_released hi.timers hi.duration _
  | timerFires n =>
    obtain ⟨c, hc, rfl⟩ := Option.map_eq_some_iff.mp hf
    obtain ⟨τ, _, _, _, rfl⟩ := Channel.fireTimer_eq hc
    exact watchInvariant_frame hi rfl rfl rfl rfl (liveTimer_fire _ _)
  | handleTOT n =>
    obtain ⟨r, hr, rfl⟩ := Option.map_eq_some_iff.mp hf
    obtain ⟨τ, _, _, _, rfl⟩ := Channel.runTimer_eq hr
    refine ⟨by simp [Channel.BusyAgrees], hi.duration, ⟨fun hs => absurd rfl hs, fun _ u => ?_⟩,
      fun hs => absurd rfl hs⟩
    -- The handler either finds the floor idle or belongs to the one live timer.
    rw [liveTimer_run]
    rintro ⟨hlive, hne⟩
    by_cases hidle : s.floor.channel.activeSpeaker = none
    · exact hi.timers.idle hidle u hlive
    · obtain ⟨t, ht, honly⟩ := hi.timers.held hidle
      have hn : t = n := Option.some.inj (ht.symm.trans (hfresh n rfl hidle))
      exact hne (((honly u).mp hlive).trans hn)
  | setClient client fields =>
    cases hf
    exact watchInvariant_frame hi rfl rfl rfl rfl (fun _ => Iff.rfl)

theorem watchInvariant_init (clients : Clients) (definition : ChannelDef) {tot : ℤ}
    (hpos : 0 < tot) : WatchInvariant (watchedInit clients definition tot) where
  busy := by simp [Channel.BusyAgrees, watchedInit, floorInit, newChannel]
  duration := hpos
  timers := ⟨fun h => absurd rfl h, fun _ u => by
    simp [LiveTimer, watchedInit, floorInit, newChannel]⟩
  armed h := absurd rfl h

/-- The ownership law holds along a run exactly when no stopped timer's handler runs on a
held floor. -/
theorem tot_ownership_iff (clients : Clients) (definition : ChannelDef) (tot : ℤ)
    (hpos : 0 < tot) (es : List FloorEvent) :
    TOTOwnership (watchedInit clients definition tot) es ↔
      Guarded watchedStep NoStaleExpiry (watchedInit clients definition tot) es := by
  have hinit := watchInvariant_init clients definition hpos
  have hagree := guarded_iff es (P := NoStaleExpiry)
    (G := fun s e => s.floor.channel.TimersWatched ∧ ExpiresOwnHold s e)
    watchInvariant_step (fun s e hi => by
      constructor
      · exact fun hf => ⟨hi.timers, fun t he hs => (hi.armed hs).trans (hf t he hs)⟩
      · exact fun hg t he hs => (hi.armed hs).symm.trans (hg.2 t he hs)) hinit
  constructor
  · exact fun ho => hagree.mpr ho.1
  · intro hg
    exact ⟨hagree.mp hg, fun u r => (r.invariant_of_guarded watchInvariant_step hg hinit).timers⟩

/-- Timer 0 fires while its handler waits for the mutex; the floor is released and granted
again before the handler gets it. -/
def lateExpiry : List FloorEvent :=
  [.requestFloor 0, .timerFires 0, .releaseFloor 0, .requestFloor 1, .handleTOT 0]

/-- The late handler of a released hold clears the next hold and leaves the timer of that
hold live on an idle floor. -/
theorem tot_ownership_fails :
    (∃ u, Run watchedStep (watchedInit sampleClients { id := 2, name := "TEST TOT" } (60 * second))
      lateExpiry u ∧ u.floor.channel.activeSpeaker = none ∧ LiveTimer u.floor.channel.timers 1) ∧
    ¬ TOTOwnership (watchedInit sampleClients { id := 2, name := "TEST TOT" } (60 * second))
      lateExpiry := by
  have hrun : ∃ u, Run watchedStep
      (watchedInit sampleClients { id := 2, name := "TEST TOT" } (60 * second)) lateExpiry u ∧
      u.floor.channel.activeSpeaker = none ∧ LiveTimer u.floor.channel.timers 1 :=
    ⟨_, (run_iff_foldlM _ _ _).mpr rfl, rfl, ⟨Timer.armed, rfl, rfl⟩⟩
  refine ⟨hrun, fun ho => ?_⟩
  obtain ⟨u, r, hidle, hlive⟩ := hrun
  exact (ho.2 u r).idle hidle 1 hlive

/-- A hold that ends by its own timer. -/
theorem tot_ownership_iff_one_hold :
    0 < 60 * second ∧
      (TOTOwnership (watchedInit sampleClients { id := 2, name := "TEST TOT" } (60 * second))
          [.requestFloor 0, .timerFires 0, .handleTOT 0] ↔
        Guarded watchedStep NoStaleExpiry
          (watchedInit sampleClients { id := 2, name := "TEST TOT" } (60 * second))
          [.requestFloor 0, .timerFires 0, .handleTOT 0]) :=
  ⟨by decide, tot_ownership_iff sampleClients { id := 2, name := "TEST TOT" } (60 * second)
    (by decide) [.requestFloor 0, .timerFires 0, .handleTOT 0]⟩

end TwoWayRadio

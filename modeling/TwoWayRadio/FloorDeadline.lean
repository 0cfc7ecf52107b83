import TwoWayRadio.ChannelTOT
import TwoWayRadio.FloorHistory

/-! The watchdog of the floor: how long a hold can last, whatever the clients do. -/
namespace TwoWayRadio
open Interleaving Transition

/-- A live timer of `ts'` was there before, as it is, or is the one that was just armed. -/
def TimersFollow (ts ts' : List Timer) : Prop :=
  ts.length ≤ ts'.length ∧ ∀ u τ, ts'[u]? = some τ → τ.live = true →
    ts[u]? = some τ ∨ u = ts.length ∧ τ = Timer.armed

theorem TimersFollow.refl (ts : List Timer) : TimersFollow ts ts :=
  ⟨le_rfl, fun _ _ hτ _ => Or.inl hτ⟩

theorem TimersFollow.live {ts ts' : List Timer} (hf : TimersFollow ts ts') {u : ℕ}
    (hl : LiveTimer ts' u) : LiveTimer ts u ∨ u = ts.length := by
  obtain ⟨τ, hτ, hlive⟩ := hl
  rcases hf.2 u τ hτ hlive with h | h
  · exact Or.inl ⟨τ, h, hlive⟩
  · exact Or.inr h.1

/-- A change after which a timer is dead is followed by what was live before. -/
theorem timersFollow_modify {ts : List Timer} (t : ℕ) (f : Timer → Timer)
    (hf : ∀ τ, (f τ).live = false) : TimersFollow ts (ts.modify t f) := by
  refine ⟨(List.length_modify ..).ge, fun u τ hτ hlive => Or.inl ?_⟩
  rw [List.getElem?_modify] at hτ
  obtain ⟨ρ, hρ, heq⟩ := Option.map_eq_some_iff.mp hτ
  split_ifs at heq with htu
  · rw [← heq, hf] at hlive
    cases hlive
  · rw [hρ, ← heq]

theorem TimersFollow.arm {ts ts' : List Timer} (hf : TimersFollow ts ts')
    (hlen : ts'.length = ts.length) : TimersFollow ts (ts' ++ [Timer.armed]) := by
  refine ⟨by simp [hlen], fun u τ hτ hlive => ?_⟩
  rcases lt_or_ge u ts'.length with hu | hu
  · rw [List.getElem?_append_left hu] at hτ
    exact hf.2 u τ hτ hlive
  · rw [List.getElem?_append_right hu, List.getElem?_singleton] at hτ
    split_ifs at hτ with h0
    exact Or.inr ⟨by omega, (Option.some.inj hτ).symm⟩

namespace Channel

/-- What a critical section of a channel does to its floor: nothing, a grant with a timer of
its own, or the end of a hold. -/
inductive FloorMove (c c' : Channel) : Prop
  | stays (hspeaker : c'.activeSpeaker = c.activeSpeaker) (hbusy : c'.isBusy = c.isBusy)
      (htimer : c'.totTimer = c.totTimer) (htimers : c'.timers = c.timers)
  | granted (x : ClientRef) (hne : c.activeSpeaker ≠ some x)
      (hspeaker : c'.activeSpeaker = some x) (hbusy : c'.isBusy = true)
      (htimer : c'.totTimer = some c.timers.length)
      (hlive : LiveTimer c'.timers c.timers.length) (hfollow : TimersFollow c.timers c'.timers)
  | cleared (hspeaker : c'.activeSpeaker = none) (hbusy : c'.isBusy = false)
      (hlen : c'.timers.length = c.timers.length) (hfollow : TimersFollow c.timers c'.timers)

theorem FloorMove.follow {c c' : Channel} (hm : c.FloorMove c') :
    TimersFollow c.timers c'.timers := by
  cases hm with
  | stays _ _ _ htimers =>
    rw [htimers]
    exact .refl _
  | granted _ _ _ _ _ _ hfollow => exact hfollow
  | cleared _ _ _ hfollow => exact hfollow

theorem timersFollow_cancelTOT (c : Channel) : TimersFollow c.timers c.cancelTOT.timers := by
  rw [cancelTOT_timers]
  cases c.totTimer with
  | none => exact .refl _
  | some t => exact timersFollow_modify t Timer.stop fun τ => by simp [Timer.stop, Timer.live]

/-- The grant of `RequestFloor`: the old timer is cancelled and a new one armed. -/
theorem floorMove_granted {c d : Channel} (x : ClientRef) (hpos : 0 < d.totDuration)
    (hne : c.activeSpeaker ≠ some x) (hspeaker : d.activeSpeaker = some x)
    (hbusy : d.isBusy = true) (htimers : d.timers = c.cancelTOT.timers) :
    c.FloorMove d.armTOT := by
  have hlen : d.timers.length = c.timers.length := by
    rw [htimers, length_timers_cancelTOT]
  have harm : d.armTOT =
      { d with timers := d.timers ++ [Timer.armed], totTimer := some d.timers.length } := by
    unfold armTOT
    rw [if_pos hpos]
  have hfollow : TimersFollow c.timers (d.timers ++ [Timer.armed]) :=
    (htimers ▸ timersFollow_cancelTOT c).arm hlen
  rw [harm]
  refine .granted x hne hspeaker hbusy (congrArg some hlen) ?_ hfollow
  exact (liveTimer_append _ _).mpr (Or.inr hlen.symm)

theorem floorMove_requestFloor (clients : Clients) (x : ClientRef) {c : Channel}
    (hb : c.BusyAgrees) (hpos : 0 < c.totDuration) :
    c.FloorMove (c.requestFloor clients x).2 := by
  have hout := requestFloor_outcome clients x hb
  generalize (c.requestFloor clients x).1 = reply at hout
  generalize (c.requestFloor clients x).2 = c' at hout
  cases hout with
  | fresh hidle =>
    refine floorMove_granted x (by simpa using hpos) (by simp [hidle]) (by simp) (by simp) ?_
    rw [cancelTOT_timers, cancelTOT_timers]
  | held hspeaker => exact .stays rfl rfl rfl rfl
  | preempts y hspeaker hne hp =>
    have hbusy : c.isBusy = true := hb.mpr (by rw [hspeaker]; exact Option.some_ne_none y)
    exact floorMove_granted x (by simpa using hpos) (by simpa [hspeaker] using hne) rfl
      (by simpa using hbusy) rfl
  | denied y hspeaker hne hp => exact .stays rfl rfl rfl rfl

theorem floorMove_releaseFloor (x : ClientRef) (c : Channel) :
    c.FloorMove (c.releaseFloor x).2 := by
  rcases c.releaseFloor_cases x with ⟨_, _, heq⟩ | ⟨_, heq⟩
  · rw [heq]
    exact .cleared rfl rfl (length_timers_cancelTOT c) (timersFollow_cancelTOT c)
  · rw [heq]
    exact .stays rfl rfl rfl rfl

theorem floorMove_removeSubscriber (x : ClientRef) (c : Channel) :
    c.FloorMove (c.removeSubscriber x).2 := by
  rw [removeSubscriber_eq]
  -- the subscription is no part of the floor
  cases floorMove_releaseFloor x { c with subscribers := c.subscribers.erase x } with
  | stays hspeaker hbusy htimer htimers => exact .stays hspeaker hbusy htimer htimers
  | granted y hne hspeaker hbusy htimer hlive hfollow =>
    exact .granted y hne hspeaker hbusy htimer hlive hfollow
  | cleared hspeaker hbusy hlen hfollow => exact .cleared hspeaker hbusy hlen hfollow

theorem floorMove_runTimer (t : ℕ) (c : Channel) :
    c.FloorMove ((c.runTimer t).getD (none, c)).2 := by
  cases hr : c.runTimer t with
  | none => exact .stays rfl rfl rfl rfl
  | some r =>
    obtain ⟨τ, _, _, _, rfl⟩ := runTimer_eq hr
    exact .cleared rfl rfl (List.length_modify ..)
      (timersFollow_modify t Timer.run fun τ => by simp [Timer.run, Timer.live])

/-- No call changes how long a hold may last. -/
theorem requestFloor_totDuration (clients : Clients) (x : ClientRef) (c : Channel) :
    (c.requestFloor clients x).2.totDuration = c.totDuration := by
  unfold requestFloor
  split
  · split_ifs <;> simp
  · simp

theorem releaseFloor_totDuration (x : ClientRef) (c : Channel) :
    (c.releaseFloor x).2.totDuration = c.totDuration := by
  rcases c.releaseFloor_cases x with ⟨_, _, h⟩ | ⟨_, h⟩ <;> simp [h]

theorem runTimer_totDuration (t : ℕ) (c : Channel) :
    ((c.runTimer t).getD (none, c)).2.totDuration = c.totDuration := by
  cases hr : c.runTimer t with
  | none => rfl
  | some r =>
    obtain ⟨_, _, _, _, rfl⟩ := runTimer_eq hr
    rfl

end Channel

namespace HubOp

/-- A channel after a call is as before, or the call made one move on it, or created it. -/
theorem floorMove_run {h : Hub} (hb : h.BusyAgrees)
    (hpos : ∀ ch c, h.channels.lookup ch = some c → 0 < c.totDuration) (op : HubOp)
    {ch : ChannelID} {c' : Channel} (hc' : (op.run h).2.channels.lookup ch = some c') :
    (∃ c, h.channels.lookup ch = some c ∧ c.FloorMove c' ∧ c'.totDuration = c.totDuration) ∨
      h.channels.lookup ch = none ∧ ∃ d, c' = newChannel d h.config.totDuration := by
  have hsection : ∀ {α : Type} {ch' : ChannelID} {absent : α} {f : Channel → α × Channel},
      (∀ c, h.channels.lookup ch' = some c →
        c.FloorMove (f c).2 ∧ (f c).2.totDuration = c.totDuration) →
      (h.onChannel ch' absent f).2.channels.lookup ch = some c' →
      ∃ c, h.channels.lookup ch = some c ∧ c.FloorMove c' ∧ c'.totDuration = c.totDuration := by
    intro α ch' absent f hf hlook
    rw [Hub.lookup_onChannel] at hlook
    split_ifs at hlook with heq
    · obtain ⟨c, hc, rfl⟩ := Option.map_eq_some_iff.mp hlook
      exact ⟨c, heq ▸ hc, hf c hc⟩
    · exact ⟨c', hlook, .stays rfl rfl rfl rfl, rfl⟩
  by_cases hnone : op.target = none
  · by_cases hcr : op.createsChannel = false
    · rw [channels_run hnone hcr] at hc'
      exact Or.inl ⟨c', hc', .stays rfl rfl rfl rfl, rfl⟩
    · cases op with
      | createChannel p =>
        rw [lookup_createChannel] at hc'
        split_ifs at hc' with heq
        · exact Or.inr ⟨heq ▸ h.newChannelID_fresh, _, (Option.some.inj hc').symm⟩
        · exact Or.inl ⟨c', hc', .stays rfl rfl rfl rfl, rfl⟩
      | _ => exact absurd rfl hcr
  · refine Or.inl ?_
    cases op with
    | addSubscriber ch' x => exact hsection (fun c _ => ⟨.stays rfl rfl rfl rfl, rfl⟩) hc'
    | removeSubscriber ch' x =>
      refine hsection (fun c _ => ⟨c.floorMove_removeSubscriber x, ?_⟩) hc'
      rw [Channel.removeSubscriber_eq]
      exact Channel.releaseFloor_totDuration x { c with subscribers := c.subscribers.erase x }
    | requestFloor ch' x =>
      exact hsection (fun c hc => ⟨Channel.floorMove_requestFloor h.heap x (hb ch' c hc)
        (hpos ch' c hc), c.requestFloor_totDuration h.heap x⟩) hc'
    | releaseFloor ch' x =>
      exact hsection (fun c _ => ⟨c.floorMove_releaseFloor x, c.releaseFloor_totDuration x⟩) hc'
    | handleTOT ch' timer =>
      exact hsection (fun c _ => ⟨c.floorMove_runTimer timer, c.runTimer_totDuration timer⟩) hc'
    | _ => exact absurd rfl hnone

/-- Calls change neither the configuration nor the clock. -/
theorem settings_run (op : HubOp) (h : Hub) :
    ((op.run h).2.config, (op.run h).2.now) = (h.config, h.now) := by
  have hchannel : ∀ {α : Type} (ch : ChannelID) (absent : α) (f : Channel → α × Channel),
      ((h.onChannel ch absent f).2.config, (h.onChannel ch absent f).2.now) = (h.config, h.now) :=
    fun ch absent f => Hub.onChannel_part (g := fun h => (h.config, h.now)) (fun _ _ => rfl) ..
  have hrecorder : ∀ {α : Type} (absent : α) (f : AudioRecorder → α × AudioRecorder),
      ((h.onRecorder absent f).2.config, (h.onRecorder absent f).2.now) = (h.config, h.now) :=
    fun absent f => Hub.onRecorder_part (g := fun h => (h.config, h.now)) (fun _ _ => rfl) ..
  cases op with
  | register x first =>
    show ((h.register x first).2.config, (h.register x first).2.now) = (h.config, h.now)
    rw [Hub.register_eq]
  | endVideo x =>
    simp only [run]
    split_ifs <;> rfl
  | addSubscriber ch x => exact hchannel ..
  | removeSubscriber ch x => exact hchannel ..
  | requestFloor ch x => exact hchannel ..
  | releaseFloor ch x => exact hchannel ..
  | handleTOT ch timer => exact hchannel ..
  | onTransmissionStart ch x => exact hrecorder ..
  | appendAudio ch payload => exact hrecorder ..
  | onTransmissionEnd ch => exact hrecorder ..
  | _ => rfl

end HubOp

/-- When the holder of a channel got the floor, and when each of its timers was started. -/
structure HoldClock where
  grantedAt : ℤ
  armedAt : ℕ → ℤ

namespace HoldClock

/-- The times after a call at `now` that takes the channel from `c` to `c'`. -/
def next (k : HoldClock) (now : ℤ) (c c' : Channel) : HoldClock where
  grantedAt := if c'.activeSpeaker = c.activeSpeaker then k.grantedAt else now
  armedAt u := if c.timers.length ≤ u then now else k.armedAt u

def sees (op : HubOp) (h : Hub) (g : ChannelID → HoldClock) (ch : ChannelID) : HoldClock :=
  match h.channels.lookup ch, (op.run h).2.channels.lookup ch with
  | some c, some c' => (g ch).next h.now c c'
  | _, _ => g ch

end HoldClock

def holdObserver : Observer (ChannelID → HoldClock) where
  starts := fun _ g => g
  sees := fun _ op _ h g => HoldClock.sees op h g

/-- A server that starts at `now` with nobody on the air. -/
def watchedServer (cfg : Config) (recorder : Option AudioRecorder) (roipRelay : Bool)
    (heap : Clients) (now : ℤ) : Server (ChannelID → HoldClock) :=
  Server.init (newHub cfg recorder roipRelay heap now) fun _ => ⟨now, fun _ => now⟩

/-- The floor and the timers of a channel under the watchdog. A held floor has a live timer
that was started with the hold. -/
structure Channel.OnWatch (k : HoldClock) (c : Channel) : Prop where
  busy : c.BusyAgrees
  duration : 0 < c.totDuration
  armed : c.activeSpeaker ≠ none →
    ∃ u, c.totTimer = some u ∧ LiveTimer c.timers u ∧ k.armedAt u = k.grantedAt

/-- No timer that is still to run is more than `ε` late. -/
def Channel.Punctual (ε : ℕ) (now : ℤ) (k : HoldClock) (c : Channel) : Prop :=
  ∀ u, LiveTimer c.timers u → now ≤ k.armedAt u + c.totDuration + ε

instance (ε : ℕ) (now : ℤ) (k : HoldClock) (c : Channel) : Decidable (c.Punctual ε now k) :=
  decidable_of_iff (∀ u < c.timers.length, (c.timers[u]?).any Timer.live = true →
      now ≤ k.armedAt u + c.totDuration + ε) <| by
    refine forall_congr' fun u => ⟨fun h hlive => ?_, fun h _ hlive => ?_⟩
    · obtain ⟨τ, hτ, hl⟩ := hlive
      exact h (List.getElem?_eq_some_iff.mp hτ).1 ((Option.any_eq_true ..).mpr ⟨τ, hτ, hl⟩)
    · exact h ((Option.any_eq_true ..).mp hlive)

/-- Time passes only as far as the runtime keeps its promise to run the handler of a timer at
most `ε` after its duration. -/
def PromptTick (ε : ℕ) (s : Server (ChannelID → HoldClock)) (e : ServerEvent) : Prop :=
  ∀ d, e = .tick d → ∀ ch c, s.hub.channels.lookup ch = some c →
    c.Punctual ε (s.hub.now + d) (s.history ch)

instance (ε : ℕ) (s : Server (ChannelID → HoldClock)) (e : ServerEvent) :
    Decidable (PromptTick ε s e) :=
  match e with
  | .tick d => decidable_of_iff (∀ p ∈ s.hub.channels.entries,
      p.2.Punctual ε (s.hub.now + d) (s.history p.1)) <| by
    constructor
    · rintro h _ ⟨⟩ ch c hc
      exact h ⟨ch, c⟩ (AList.mem_lookup_iff.mp hc)
    · exact fun h p hp => h d rfl p.1 p.2 (AList.mem_lookup_iff.mpr hp)
  | .serve _ | .advance _ | .timerFires .. => isTrue fun _ he => by cases he

theorem LiveTimer.lt {ts : List Timer} {u : ℕ} (hl : LiveTimer ts u) : u < ts.length := by
  obtain ⟨τ, hτ, _⟩ := hl
  exact (List.getElem?_eq_some_iff.mp hτ).1

namespace Channel

variable {c c' : Channel} {k : HoldClock}

/-- One move keeps the watch: a hold begins with its own timer and ends with it. -/
theorem OnWatch.move (hw : c.OnWatch k) (hm : c.FloorMove c')
    (hdur : c'.totDuration = c.totDuration) (now : ℤ) : c'.OnWatch (k.next now c c') := by
  have hpos : 0 < c'.totDuration := hdur ▸ hw.duration
  cases hm with
  | stays hspeaker hbusy htimer htimers =>
    refine ⟨?_, hpos, fun hs => ?_⟩
    · have hb := hw.busy
      rwa [BusyAgrees, ← hbusy, ← hspeaker] at hb
    · obtain ⟨u, hu, hlive, harmed⟩ := hw.armed (hspeaker ▸ hs)
      refine ⟨u, htimer.trans hu, htimers ▸ hlive, ?_⟩
      simp [HoldClock.next, hspeaker, hlive.lt, harmed]
  | granted x hne hspeaker hbusy htimer hlive hfollow =>
    refine ⟨?_, hpos, fun _ => ⟨_, htimer, hlive, ?_⟩⟩
    · simp [BusyAgrees, hbusy, hspeaker]
    · have hdiff : c'.activeSpeaker ≠ c.activeSpeaker := by
        rw [hspeaker]
        exact hne.symm
      simp [HoldClock.next, hdiff]
  | cleared hspeaker hbusy hlen hfollow =>
    exact ⟨by simp [BusyAgrees, hbusy, hspeaker], hpos, fun hs => absurd hspeaker hs⟩

/-- What a move leaves waiting was waiting before or has just been started. -/
theorem Punctual.move {ε : ℕ} {now : ℤ} (hp : c.Punctual ε now k) (hm : c.FloorMove c')
    (hdur : c'.totDuration = c.totDuration) (hpos : 0 < c.totDuration) :
    c'.Punctual ε now (k.next now c c') := by
  intro u hlive
  rw [hdur]
  rcases hm.follow.live hlive with hold | hnew
  · have hsame : (k.next now c c').armedAt u = k.armedAt u := if_neg (not_le.mpr hold.lt)
    rw [hsame]
    exact hp u hold
  · have hnow : (k.next now c c').armedAt u = now := if_pos hnew.ge
    rw [hnow]
    omega

theorem onWatch_new {d : ChannelDef} {tot : ℤ} (hpos : 0 < tot) (k : HoldClock) :
    (newChannel d tot).OnWatch k where
  busy := by simp [BusyAgrees, newChannel]
  duration := hpos
  armed hs := absurd rfl hs

theorem punctual_new {d : ChannelDef} {tot : ℤ} (ε : ℕ) (now : ℤ) (k : HoldClock) :
    (newChannel d tot).Punctual ε now k :=
  fun u hlive => absurd hlive.lt (Nat.not_lt_zero u)

/-- The runtime's part of a timer takes nothing off the watch. -/
theorem onWatch_fireTimer {t : ℕ} (hw : c.OnWatch k) (hf : c.fireTimer t = some c') :
    c'.OnWatch k ∧ c'.totDuration = c.totDuration ∧
      ∀ ε now, c.Punctual ε now k → c'.Punctual ε now k := by
  obtain ⟨_, _, _, _, rfl⟩ := fireTimer_eq hf
  refine ⟨⟨hw.busy, hw.duration, fun hs => ?_⟩, rfl, fun ε now hp u hlive => ?_⟩
  · obtain ⟨u, hu, hlive, harmed⟩ := hw.armed hs
    exact ⟨u, hu, (liveTimer_fire _ _ _).mpr hlive, harmed⟩
  · exact hp u ((liveTimer_fire _ _ _).mp hlive)

end Channel

/-- Every channel is under the watchdog, with the duration the hub was configured with. -/
structure Watching (tot : ℤ) (s : Server (ChannelID → HoldClock)) : Prop where
  config : s.hub.config.totDuration = tot
  channels : ∀ ch c, s.hub.channels.lookup ch = some c →
    c.totDuration = tot ∧ c.OnWatch (s.history ch)

theorem Watching.busyAgrees {tot : ℤ} {s : Server (ChannelID → HoldClock)}
    (hw : Watching tot s) : s.hub.BusyAgrees :=
  fun ch c hc => (hw.channels ch c hc).2.busy

/-- The channels after a step: untouched, moved by a call, new, or with a timer that fired. -/
theorem Watching.channel_step {tot : ℤ} {s t : Server (ChannelID → HoldClock)} {e : ServerEvent}
    (hw : Watching tot s) (h : serverStep holdObserver s e = some t) {ch : ChannelID}
    {c' : Channel} (hc' : t.hub.channels.lookup ch = some c') :
    (∃ c, s.hub.channels.lookup ch = some c ∧ c.FloorMove c' ∧
        c'.totDuration = c.totDuration ∧ t.history ch = (s.history ch).next s.hub.now c c') ∨
      (∃ d, c' = newChannel d tot) ∨
      (∃ c n, s.hub.channels.lookup ch = some c ∧ c.fireTimer n = some c' ∧
        t.history ch = s.history ch) ∨
      s.hub.channels.lookup ch = some c' ∧ t.history ch = s.history ch := by
  cases e with
  | serve r =>
    obtain ⟨hhub, hhist⟩ := serverStep_starts h
    rw [hhub] at hc'
    exact Or.inr (Or.inr (Or.inr ⟨hc', congrFun hhist ch⟩))
  | advance i =>
    obtain ⟨op, _, _, _, hhub, hhist, _⟩ := serverStep_advance h
    rw [hhub] at hc'
    have hpos : ∀ ch c, s.hub.channels.lookup ch = some c → 0 < c.totDuration :=
      fun ch c hc => (hw.channels ch c hc).2.duration
    rcases op.floorMove_run hw.busyAgrees hpos hc' with ⟨c, hc, hm, hdur⟩ | ⟨_, d, hd⟩
    · refine Or.inl ⟨c, hc, hm, hdur, ?_⟩
      rw [hhist]
      show HoldClock.sees op s.hub s.history ch = _
      rw [HoldClock.sees, hc, hc']
    · exact Or.inr (Or.inl ⟨d, hw.config ▸ hd⟩)
  | timerFires ch' n =>
    obtain ⟨hf, _, hhist, _⟩ := serverStep_timerFires h
    obtain ⟨c, c₁, hc, hfire, heq⟩ := Hub.fireTimer_eq hf
    rw [heq] at hc'
    have hsame : t.history ch = s.history ch := congrFun hhist ch
    by_cases hch : ch = ch'
    · subst hch
      rw [AList.lookup_insert] at hc'
      obtain rfl := Option.some.inj hc'
      exact Or.inr (Or.inr (Or.inl ⟨c, n, hc, hfire, hsame⟩))
    · rw [AList.lookup_insert_ne hch] at hc'
      exact Or.inr (Or.inr (Or.inr ⟨hc', hsame⟩))
  | tick d =>
    obtain ⟨hhub, _, hhist, _⟩ := serverStep_tick h
    rw [hhub] at hc'
    exact Or.inr (Or.inr (Or.inr ⟨hc', congrFun hhist ch⟩))

theorem Watching.step {tot : ℤ} {s t : Server (ChannelID → HoldClock)} {e : ServerEvent}
    (hpos : 0 < tot) (hw : Watching tot s) (h : serverStep holdObserver s e = some t) :
    Watching tot t := by
  refine ⟨?_, fun ch c' hc' => ?_⟩
  · have hpart := serverStep_part (f := fun h : Hub => h.config) (fun _ _ _ => rfl) h
    rcases hpart with heq | ⟨i, op, k, _, _, hhub⟩
    · exact (congrArg Config.totDuration heq).trans hw.config
    · have hsame : (op.run s.hub).2.config = s.hub.config :=
        congrArg Prod.fst (op.settings_run s.hub)
      rw [hhub, hsame]
      exact hw.config
  · rcases hw.channel_step h hc' with ⟨c, hc, hm, hdur, hk⟩ | ⟨d, rfl⟩ | ⟨c, n, hc, hf, hk⟩ |
      ⟨hc, hk⟩
    · obtain ⟨htot, hon⟩ := hw.channels ch c hc
      exact ⟨hdur.trans htot, hk ▸ hon.move hm hdur s.hub.now⟩
    · exact ⟨rfl, Channel.onWatch_new hpos _⟩
    · obtain ⟨htot, hon⟩ := hw.channels ch c hc
      obtain ⟨hon', hdur, _⟩ := Channel.onWatch_fireTimer hon hf
      exact ⟨hdur.trans htot, hk ▸ hon'⟩
    · rw [hk]
      exact hw.channels ch c' hc

theorem watching_init {cfg : Config} (hpos : 0 < cfg.totDuration)
    (recorder : Option AudioRecorder) (roipRelay : Bool) (heap : Clients) (now : ℤ) :
    Watching cfg.totDuration (watchedServer cfg recorder roipRelay heap now) where
  config := rfl
  channels ch c hc := by
    obtain ⟨d, _, _, rfl⟩ := lookup_defaultChannelMap cfg hc
    exact ⟨rfl, Channel.onWatch_new hpos _⟩

/-- Nothing is more than `ε` late. -/
def AllPunctual (ε : ℕ) (s : Server (ChannelID → HoldClock)) : Prop :=
  ∀ ch c, s.hub.channels.lookup ch = some c → c.Punctual ε s.hub.now (s.history ch)

theorem serverStep_now {γ : Type} {o : Observer γ} {s t : Server γ} {e : ServerEvent}
    (h : serverStep o s e = some t) :
    t.hub.now = s.hub.now ∨ ∃ d, e = .tick d ∧ t.hub = { s.hub with now := s.hub.now + d } := by
  cases e with
  | serve r => exact Or.inl (congrArg Hub.now (serverStep_starts h).1)
  | advance i =>
    obtain ⟨op, _, _, _, hhub, _⟩ := serverStep_advance h
    exact Or.inl ((congrArg Hub.now hhub).trans (congrArg Prod.snd (op.settings_run s.hub)))
  | timerFires ch n =>
    obtain ⟨_, _, _, _, heq⟩ := Hub.fireTimer_eq (serverStep_timerFires h).1
    rw [heq]
    exact Or.inl rfl
  | tick d => exact Or.inr ⟨d, rfl, (serverStep_tick h).1⟩

theorem AllPunctual.step {ε : ℕ} {tot : ℤ} {s t : Server (ChannelID → HoldClock)}
    {e : ServerEvent} (hpos : 0 < tot) (hw : Watching tot s) (hp : AllPunctual ε s)
    (hprompt : PromptTick ε s e) (h : serverStep holdObserver s e = some t) :
    AllPunctual ε t := by
  intro ch c' hc'
  rcases serverStep_now h with hnow | ⟨d, rfl, hhub⟩
  · rw [hnow]
    rcases hw.channel_step h hc' with ⟨c, hc, hm, hdur, hk⟩ | ⟨d, rfl⟩ | ⟨c, n, hc, hf, hk⟩ |
      ⟨hc, hk⟩
    · obtain ⟨htot, _⟩ := hw.channels ch c hc
      exact hk ▸ (hp ch c hc).move hm hdur (htot ▸ hpos)
    · exact Channel.punctual_new ε _ _
    · exact hk ▸ (Channel.onWatch_fireTimer (hw.channels ch c hc).2 hf).2.2 ε _ (hp ch c hc)
    · exact hk ▸ hp ch c' hc
  · obtain ⟨_, _, hhist, _⟩ := serverStep_tick h
    rw [hhub] at hc' ⊢
    rw [hhist]
    exact hprompt d rfl ch c' hc'

/-- Nobody holds a floor for longer than the time-out and the delay of the runtime: not by
asking again, whatever the other clients do and however the handlers interleave. -/
theorem hold_bounded (cfg : Config) (hpos : 0 < cfg.totDuration)
    (recorder : Option AudioRecorder) (roipRelay : Bool) (heap : Clients) (now : ℤ) (ε : ℕ)
    (es : List ServerEvent) (s : Server (ChannelID → HoldClock))
    (hrun : Run (serverStep holdObserver) (watchedServer cfg recorder roipRelay heap now) es s)
    (hprompt : Guarded (serverStep holdObserver) (PromptTick ε)
      (watchedServer cfg recorder roipRelay heap now) es)
    (ch : ChannelID) (x : ClientRef) (hx : s.hub.holder ch = some x) :
    s.hub.now ≤ (s.history ch).grantedAt + cfg.totDuration + ε := by
  have hinv : Watching cfg.totDuration s ∧ AllPunctual ε s := by
    refine hrun.invariant_of_guarded (I := fun s => Watching cfg.totDuration s ∧ AllPunctual ε s)
      (fun s e t hi hg h => ⟨hi.1.step hpos h, hi.2.step hpos hi.1 hg h⟩) hprompt
      ⟨watching_init hpos recorder roipRelay heap now, fun ch c hc => ?_⟩
    obtain ⟨d, _, _, rfl⟩ := lookup_defaultChannelMap cfg hc
    exact Channel.punctual_new ε _ _
  obtain ⟨hw, hp⟩ := hinv
  obtain ⟨c, hc, hspeaker⟩ := Option.bind_eq_some_iff.mp hx
  obtain ⟨htot, hon⟩ := hw.channels ch c hc
  obtain ⟨u, _, hlive, harmed⟩ := hon.armed (by rw [hspeaker]; exact Option.some_ne_none x)
  have hlate := hp ch c hc u hlive
  rwa [harmed, htot] at hlate

/-- Unit 0 keys up on channel 1 and holds on until 5 ns after its minute. -/
def heldPastTimeout : List ServerEvent :=
  uninterrupted (.connect 0 0) 10 ++ uninterrupted (.signal 0 .pttDown {}) 8 ++
    [.tick 60000000005]

theorem hold_bounded_past_timeout :
    ∃ s, Run (serverStep holdObserver) (watchedServer defaultConfig none false sampleClients 0)
        heldPastTimeout s ∧ s.hub.holder 1 = some 0 ∧ s.hub.now = 60000000005 ∧
      s.hub.now ≤ (s.history 1).grantedAt + defaultConfig.totDuration + (5 : ℕ) := by
  have hrun := run_get (serverStep holdObserver)
    (watchedServer defaultConfig none false sampleClients 0) heldPastTimeout (by decide +kernel)
  refine ⟨_, hrun, by decide +kernel, by decide +kernel, ?_⟩
  exact hold_bounded defaultConfig (by decide) none false sampleClients 0 5 heldPastTimeout _ hrun
    (by decide +kernel) 1 0 (by decide +kernel)

/-- The timers a channel has started, none for one that does not exist. -/
def Hub.timersOf (ch : ChannelID) (h : Hub) : List Timer := h.readChannel ch [] fun c => c.timers

theorem Hub.timersOf_of_lookup {ch : ChannelID} {c : Channel} {h : Hub}
    (hc : h.channels.lookup ch = some c) : h.timersOf ch = c.timers := by
  rw [timersOf, readChannel, hc]

/-- Timer `u` has not been started, or is live. -/
def Unspent (ts : List Timer) (u : ℕ) : Prop := ∀ τ, ts[u]? = some τ → τ.live = true

/-- The goroutine of a timer that is not spent has not started, or waits for the mutex since
the timer fired. -/
def FiredHandled (s : Server (ChannelID → HoldClock)) : Prop :=
  ∀ ch u, Unspent (s.hub.timersOf ch) u → s.pool.Idle (.tot ch u) ∨
    s.pool.task (.tot ch u) = Hub.totGoroutine ch u ∧
      ∃ τ, (s.hub.timersOf ch)[u]? = some τ ∧ τ.fired = true

/-- A timer that is still not spent after a change is as it was. -/
theorem TimersFollow.kept {ts ts' : List Timer} (hf : TimersFollow ts ts') {u : ℕ}
    (hu : Unspent ts' u) {τ : Timer} (hτ : ts[u]? = some τ) : ts'[u]? = some τ := by
  have hlt : u < ts.length := (List.getElem?_eq_some_iff.mp hτ).1
  have hlt' : u < ts'.length := hlt.trans_le hf.1
  have hρ : ts'[u]? = some ts'[u] := List.getElem?_eq_getElem hlt'
  rcases hf.2 u _ hρ (hu _ hρ) with hold | ⟨hnew, _⟩
  · rw [hρ, ← hold, hτ]
  · omega

theorem TimersFollow.unspent {ts ts' : List Timer} (hf : TimersFollow ts ts') {u : ℕ}
    (hu : Unspent ts' u) : Unspent ts u :=
  fun τ hτ => hu τ (hf.kept hu hτ)

theorem unspent_modify_fire {ts : List Timer} {t u : ℕ} (hu : Unspent (ts.modify t Timer.fire) u) :
    Unspent ts u := by
  intro τ hτ
  have hm := hu (if t = u then τ.fire else τ) (by rw [List.getElem?_modify, hτ]; rfl)
  split_ifs at hm
  · exact hm
  · exact hm

namespace HubOp

theorem timersFollow_run {h : Hub} (hb : h.BusyAgrees)
    (hpos : ∀ ch c, h.channels.lookup ch = some c → 0 < c.totDuration) (op : HubOp)
    (ch : ChannelID) : TimersFollow (h.timersOf ch) ((op.run h).2.timersOf ch) := by
  cases hc' : (op.run h).2.channels.lookup ch with
  | none =>
    have hnone : h.channels.lookup ch = none := by
      by_contra hsome
      have hkept : (op.run h).2.HasChannel ch :=
        op.hasChannel_run (Option.isSome_iff_ne_none.mpr hsome)
      rw [Hub.HasChannel, hc'] at hkept
      cases hkept
    rw [Hub.timersOf, Hub.timersOf, Hub.readChannel, Hub.readChannel, hc', hnone]
    exact .refl []
  | some c' =>
    rw [Hub.timersOf_of_lookup hc']
    rcases op.floorMove_run hb hpos hc' with ⟨c, hc, hm, _⟩ | ⟨hnone, d, rfl⟩
    · rw [Hub.timersOf_of_lookup hc]
      exact hm.follow
    · rw [Hub.timersOf, Hub.readChannel, hnone]
      exact .refl []

/-- The handler of a fired timer spends it and frees its floor, and no other. -/
theorem handleTOT_spends {h : Hub} {ch : ChannelID} {u : ℕ} {τ : Timer}
    (hτ : (h.timersOf ch)[u]? = some τ) (hfired : τ.fired = true) (hran : τ.ran = false) :
    ¬ Unspent (((handleTOT ch u).run h).2.timersOf ch) u ∧
      ((handleTOT ch u).run h).2.holder ch = none := by
  cases hc : h.channels.lookup ch with
  | none =>
    rw [Hub.timersOf, Hub.readChannel, hc] at hτ
    cases hτ
  | some c =>
    rw [Hub.timersOf_of_lookup hc] at hτ
    have hrun : c.runTimer u =
        some { c with timers := c.timers.modify u Timer.run }.handleTOT := by
      unfold Channel.runTimer
      rw [hτ]
      simp [hfired, hran]
    have hlook : ((handleTOT ch u).run h).2.channels.lookup ch =
        some ({ c with timers := c.timers.modify u Timer.run }.handleTOT).2 := by
      rw [run, Hub.lookup_onChannel, if_pos rfl, hc, Option.map_some, hrun]
      rfl
    rw [Hub.timersOf_of_lookup hlook, Hub.holder_of_lookup hlook]
    refine ⟨fun hu => ?_, rfl⟩
    have hlive := hu τ.run (by
      show (c.timers.modify u Timer.run)[u]? = some τ.run
      rw [List.getElem?_modify, hτ]
      simp)
    simp [Timer.live, Timer.run] at hlive

end HubOp

theorem FiredHandled.step {tot : ℤ} {s t : Server (ChannelID → HoldClock)} {e : ServerEvent}
    (hw : Watching tot s) (ha : FiredHandled s) (h : serverStep holdObserver s e = some t) :
    FiredHandled t := by
  intro ch u hu
  cases e with
  | serve r =>
    obtain ⟨hadm, _, _, _, htask, hothers⟩ := serverStep_serve h
    rw [(serverStep_starts h).1] at hu ⊢
    by_cases hr : r.thread = .tot ch u
    · cases r with
      | totExpires ch' u' =>
        obtain ⟨rfl, rfl⟩ := Thread.tot.inj hr
        refine Or.inr ⟨htask, ?_⟩
        obtain ⟨c, hc, hany⟩ : ∃ c, s.hub.channels.lookup ch' = some c ∧
            ((c.timers[u']?).any fun τ => τ.fired && !τ.ran) = true := by
          simp only [Request.admitted, Hub.readChannel] at hadm
          split at hadm
          · cases hadm
          · rename_i c hc
            exact ⟨c, hc, hadm⟩
        obtain ⟨τ, hτ, hready⟩ := (Option.any_eq_true ..).mp hany
        rw [Hub.timersOf_of_lookup hc]
        exact ⟨τ, hτ, (Bool.and_eq_true_iff.mp hready).1⟩
      | _ => cases hr
    · rw [Pool.Idle, hothers _ (Ne.symm hr)]
      exact ha ch u hu
  | advance i =>
    obtain ⟨op, k, hk, _, hhub, _, _, hothers⟩ := serverStep_advance h
    have hpos : ∀ ch c, s.hub.channels.lookup ch = some c → 0 < c.totDuration :=
      fun ch c hc => (hw.channels ch c hc).2.duration
    have hfollow := op.timersFollow_run hw.busyAgrees hpos ch
    rw [hhub] at hu ⊢
    have hbefore := hfollow.unspent hu
    by_cases hi : i = .tot ch u
    · -- the handler's own step spends its timer
      subst hi
      rcases ha ch u hbefore with hidle | ⟨htask, τ, hτ, hfired⟩
      · exact absurd hidle (Pool.not_idle_of_call hk)
      · rw [hk] at htask
        obtain ⟨rfl, _⟩ := Prog.call.inj htask
        have hran : τ.ran = false := by
          have hlive := hbefore τ hτ
          simp only [Timer.live, Bool.and_eq_true, Bool.not_eq_true'] at hlive
          exact hlive.2
        exact absurd hu (HubOp.handleTOT_spends hτ hfired hran).1
    · rw [Pool.Idle, hothers _ (Ne.symm hi)]
      refine (ha ch u hbefore).imp_right ?_
      rintro ⟨htask, τ, hτ, hfired⟩
      exact ⟨htask, τ, hfollow.kept hu hτ, hfired⟩
  | timerFires ch' n =>
    obtain ⟨hf, _, _, htask⟩ := serverStep_timerFires h
    obtain ⟨c, c₁, hc, hfire, heq⟩ := Hub.fireTimer_eq hf
    obtain ⟨ρ, _, _, _, rfl⟩ := Channel.fireTimer_eq hfire
    rw [Pool.Idle, htask]
    by_cases hch : ch = ch'
    · subst hch
      have hlook : t.hub.channels.lookup ch =
          some { c with timers := c.timers.modify n Timer.fire } := by
        rw [heq]
        exact AList.lookup_insert _
      rw [Hub.timersOf_of_lookup hlook] at hu ⊢
      have hat := ha ch u
      rw [Hub.timersOf_of_lookup hc] at hat
      refine (hat (unspent_modify_fire hu)).imp_right ?_
      rintro ⟨htask, τ, hτ, hfired⟩
      refine ⟨htask, if n = u then τ.fire else τ, ?_, ?_⟩
      · rw [List.getElem?_modify, hτ]
        rfl
      · split_ifs
        · rfl
        · exact hfired
    · have hsame : t.hub.timersOf ch = s.hub.timersOf ch := by
        rw [Hub.timersOf, Hub.timersOf, Hub.readChannel, Hub.readChannel, heq,
          AList.lookup_insert_ne hch]
      rw [hsame] at hu ⊢
      exact ha ch u hu
  | tick d =>
    obtain ⟨hhub, _, _, htask⟩ := serverStep_tick h
    rw [Pool.Idle, htask]
    have hsame : t.hub.timersOf ch = s.hub.timersOf ch := by
      rw [hhub]
      rfl
    rw [hsame] at hu ⊢
    exact ha ch u hu

theorem firedHandled_init (cfg : Config) (recorder : Option AudioRecorder) (roipRelay : Bool)
    (heap : Clients) (now : ℤ) : FiredHandled (watchedServer cfg recorder roipRelay heap now) :=
  fun _ _ _ => Or.inl rfl

/-- The steps that one timer and its handler take. -/
def ServerEvent.OfTimer (ch : ChannelID) (u : ℕ) (e : ServerEvent) : Prop :=
  e = .timerFires ch u ∨ e = .serve (.totExpires ch u) ∨ e = .advance (.tot ch u)

/-- The events of one timer can take the server to a state where just its floor is free. -/
def Frees (ch : ChannelID) (u : ℕ) (s : Server (ChannelID → HoldClock)) : Prop :=
  ∃ es t, Run (serverStep holdObserver) s es t ∧ (∀ e ∈ es, e.OfTimer ch u) ∧
    t.hub.holder ch = none ∧ ∀ ch', ch' ≠ ch → t.hub.holder ch' = s.hub.holder ch'

section Frees

variable {s : Server (ChannelID → HoldClock)} {ch : ChannelID} {u : ℕ} {τ : Timer}

theorem Frees.of_step {t : Server (ChannelID → HoldClock)} {e : ServerEvent}
    (h : serverStep holdObserver s e = some t) (he : e.OfTimer ch u)
    (hsame : ∀ ch', t.hub.holder ch' = s.hub.holder ch') (hf : Frees ch u t) : Frees ch u s := by
  obtain ⟨es, v, hrun, hes, hidle, hothers⟩ := hf
  refine ⟨e :: es, v, .cons h hrun, List.forall_mem_cons.mpr ⟨he, hes⟩, hidle, fun ch' hne => ?_⟩
  rw [hothers ch' hne, hsame]

theorem frees_of_waiting (htask : s.pool.task (.tot ch u) = Hub.totGoroutine ch u)
    (hτ : (s.hub.timersOf ch)[u]? = some τ) (hfired : τ.fired = true) (hran : τ.ran = false) :
    Frees ch u s := by
  obtain ⟨t, ht⟩ := serverStep_enabled (o := holdObserver) htask
  obtain ⟨op, k, hk, _, hhub, _⟩ := serverStep_advance ht
  rw [htask] at hk
  obtain ⟨rfl, _⟩ := Prog.call.inj hk
  refine ⟨[.advance (.tot ch u)], t, .cons ht (.nil t), ?_, ?_, fun ch' hne => ?_⟩
  · simp [ServerEvent.OfTimer]
  · rw [hhub]
    exact (HubOp.handleTOT_spends hτ hfired hran).2
  · rw [hhub]
    exact HubOp.holder_run_of_ne fun heq => hne (Option.some.inj heq).symm

theorem frees_of_fired (hidle : s.pool.Idle (.tot ch u))
    (hτ : (s.hub.timersOf ch)[u]? = some τ) (hfired : τ.fired = true) (hran : τ.ran = false) :
    Frees ch u s := by
  have hadm : (Request.totExpires ch u).admitted s.hub s.phase = true := by
    rw [Hub.timersOf, Hub.readChannel] at hτ
    rw [Request.admitted, Hub.readChannel]
    cases hc : s.hub.channels.lookup ch with
    | none =>
      rw [hc] at hτ
      cases hτ
    | some c =>
      rw [hc] at hτ
      simp [show c.timers[u]? = some τ from hτ, hfired, hran]
  have hstart : ∃ t, serverStep holdObserver s (.serve (.totExpires ch u)) = some t := by
    have htask : s.pool.task (Request.totExpires ch u).thread = .ret () := hidle
    rw [serverStep, if_pos hadm, Pool.start, htask]
    exact ⟨_, rfl⟩
  obtain ⟨t, ht⟩ := hstart
  obtain ⟨_, _, _, _, htask, _⟩ := serverStep_serve ht
  have hhub := (serverStep_starts ht).1
  refine .of_step ht (Or.inr (Or.inl rfl)) (fun ch' => by rw [hhub]) ?_
  exact frees_of_waiting htask (hhub ▸ hτ) hfired hran

theorem frees_of_idle (hidle : s.pool.Idle (.tot ch u))
    (hτ : (s.hub.timersOf ch)[u]? = some τ) (hlive : τ.live = true) : Frees ch u s := by
  simp only [Timer.live, Bool.and_eq_true, Bool.not_eq_true'] at hlive
  obtain ⟨hstopped, hran⟩ := hlive
  by_cases hfired : τ.fired = true
  · exact frees_of_fired hidle hτ hfired hran
  · -- the runtime fires the timer first
    have hfire : ∃ h, s.hub.fireTimer ch u = some h ∧ (h.timersOf ch)[u]? = some τ.fire := by
      cases hc : s.hub.channels.lookup ch with
      | none =>
        rw [Hub.timersOf, Hub.readChannel, hc] at hτ
        cases hτ
      | some c =>
        rw [Hub.timersOf_of_lookup hc] at hτ
        have hstep : c.fireTimer u = some { c with timers := c.timers.modify u Timer.fire } := by
          unfold Channel.fireTimer
          rw [hτ]
          simp [hfired, hstopped]
        refine ⟨{ s.hub with channels :=
          s.hub.channels.insert ch { c with timers := c.timers.modify u Timer.fire } },
          by simp only [Hub.fireTimer, hc, hstep, Option.map_some], ?_⟩
        rw [Hub.timersOf_of_lookup (AList.lookup_insert _), List.getElem?_modify, hτ]
        simp
    obtain ⟨h, hh, hfiredτ⟩ := hfire
    have hstep : ∃ t, serverStep holdObserver s (.timerFires ch u) = some t ∧ t.hub = h := by
      rw [serverStep, hh]
      exact ⟨_, rfl, rfl⟩
    obtain ⟨t, ht, hhub⟩ := hstep
    obtain ⟨_, _, _, htask⟩ := serverStep_timerFires ht
    have hτ' : (t.hub.timersOf ch)[u]? = some τ.fire := by
      rw [hhub]
      exact hfiredτ
    refine .of_step ht (Or.inl rfl) (fun ch' => ?_) (frees_of_fired ?_ hτ' rfl hran)
    · rw [hhub]
      exact Hub.fireTimer_holder hh ch'
    · rw [Pool.Idle, htask]
      exact hidle

end Frees

/-- From every state the server can reach, the timer of a held floor and its handler alone can
free that floor: no client has to do anything, and no other floor is lost. -/
theorem watchdog_frees (cfg : Config) (hpos : 0 < cfg.totDuration)
    (recorder : Option AudioRecorder) (roipRelay : Bool) (heap : Clients) (now : ℤ)
    (es : List ServerEvent) (s : Server (ChannelID → HoldClock))
    (hrun : Run (serverStep holdObserver) (watchedServer cfg recorder roipRelay heap now) es s)
    (ch : ChannelID) (x : ClientRef) (hx : s.hub.holder ch = some x) :
    ∃ u, (s.history ch).armedAt u = (s.history ch).grantedAt ∧ Frees ch u s := by
  obtain ⟨hw, ha⟩ := hrun.invariant (I := fun s => Watching cfg.totDuration s ∧ FiredHandled s)
    (fun s e t hi h => ⟨hi.1.step hpos h, hi.2.step hi.1 h⟩)
    ⟨watching_init hpos recorder roipRelay heap now,
      firedHandled_init cfg recorder roipRelay heap now⟩
  obtain ⟨c, hc, hspeaker⟩ := Option.bind_eq_some_iff.mp hx
  obtain ⟨_, hon⟩ := hw.channels ch c hc
  obtain ⟨u, _, ⟨τ, hτ, hlive⟩, harmed⟩ :=
    hon.armed (by rw [hspeaker]; exact Option.some_ne_none x)
  rw [← Hub.timersOf_of_lookup hc] at hτ
  have hunspent : Unspent (s.hub.timersOf ch) u := fun ρ hρ => by
    obtain rfl := Option.some.inj (hτ.symm.trans hρ)
    exact hlive
  refine ⟨u, harmed, ?_⟩
  rcases ha ch u hunspent with hidle | ⟨htask, ρ, hρ, hfired⟩
  · exact frees_of_idle hidle hτ hlive
  · obtain rfl := Option.some.inj (hτ.symm.trans hρ)
    simp only [Timer.live, Bool.and_eq_true, Bool.not_eq_true'] at hlive
    exact frees_of_waiting htask hτ hfired hlive.2

theorem watchdog_frees_past_timeout :
    ∃ s, Run (serverStep holdObserver) (watchedServer defaultConfig none false sampleClients 0)
        heldPastTimeout s ∧
      ∃ u, (s.history 1).armedAt u = (s.history 1).grantedAt ∧ Frees 1 u s := by
  have hrun := run_get (serverStep holdObserver)
    (watchedServer defaultConfig none false sampleClients 0) heldPastTimeout (by decide +kernel)
  exact ⟨_, hrun, watchdog_frees defaultConfig (by decide) none false sampleClients 0
    heldPastTimeout _ hrun 1 0 (by decide +kernel)⟩

end TwoWayRadio

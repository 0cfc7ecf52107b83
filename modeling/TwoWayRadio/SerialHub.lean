import TwoWayRadio.HubExec

/-! The hub with its handlers run one at a time: every run of it is a run of the server. -/
namespace TwoWayRadio
open Interleaving Transition

/-- `history` is kept beside the hub, and changes with each handler. -/
structure SerialHub (γ : Type) where
  hub : Hub
  phase : ClientRef → Phase
  history : γ

inductive SerialEvent
  | serve (r : Request)
  | timerFires (ch : ChannelID) (timer : ℕ)
  | tick (d : ℕ)
deriving DecidableEq

section Serial

variable {γ : Type}

def SerialHub.init (h : Hub) (g : γ) : SerialHub γ where
  hub := h
  phase := fun _ => .fresh
  history := g

def noNote : Request → Hub → Hub → Unit → Unit := fun _ _ _ _ => ()

/-- `note` is given the request and the hub before and after its handler. -/
def serialStep (note : Request → Hub → Hub → γ → γ) (s : SerialHub γ) :
    SerialEvent → Option (SerialHub γ)
  | .serve r =>
    if r.admitted s.hub s.phase then
      some { hub := Hub.after r.prog s.hub, phase := r.phaseAfter s.phase,
             history := note r s.hub (Hub.after r.prog s.hub) s.history }
    else none
  | .timerFires ch timer => (s.hub.fireTimer ch timer).map fun h => { s with hub := h }
  | .tick d => some { s with hub := { s.hub with now := s.hub.now + d } }

variable {note : Request → Hub → Hub → γ → γ} {s t : SerialHub γ}

theorem serialStep_serve {r : Request} (h : serialStep note s (.serve r) = some t) :
    r.admitted s.hub s.phase = true ∧ t.hub = Hub.after r.prog s.hub ∧
      t.phase = r.phaseAfter s.phase ∧ t.history = note r s.hub t.hub s.history := by
  simp only [serialStep] at h
  split_ifs at h with hadm
  obtain rfl := Option.some.inj h
  exact ⟨hadm, rfl, rfl, rfl⟩

theorem serialStep_enabled {r : Request} (h : r.admitted s.hub s.phase = true) :
    ∃ t, serialStep note s (.serve r) = some t :=
  ⟨_, if_pos h⟩

/-- The server is between two handlers, in this state of the serial hub. -/
structure SerialHub.Rests (s : SerialHub γ) (u : Server Unit) : Prop where
  hub : u.hub = s.hub
  phase : u.phase = s.phase
  idle : ∀ i, u.pool.Idle i

/-- A thread that alone makes its calls comes to its end. -/
theorem run_alone {i : Thread} {p : HubProg Unit} {u : Server Unit} (hp : u.pool.task i = p) :
    ∃ n v, Run (serverStep noObserver) u (List.replicate n (.advance i)) v ∧
      v.hub = Hub.after p u.hub ∧ v.phase = u.phase ∧ v.pool.Idle i ∧
      ∀ j, j ≠ i → v.pool.task j = u.pool.task j := by
  induction p generalizing u with
  | ret a => exact ⟨0, u, Run.nil u, rfl, rfl, hp, fun _ _ => rfl⟩
  | call op k ih =>
    obtain ⟨v, hstep⟩ := serverStep_enabled (o := noObserver) hp
    obtain ⟨op', k', hk', hphase, hhub, _, htask, hothers⟩ := serverStep_advance hstep
    rw [hp] at hk'
    obtain ⟨rfl, hk'⟩ := Prog.call.inj hk'
    obtain rfl := eq_of_heq hk'
    obtain ⟨n, w, hrun, hafter, hphase', hidle, hothers'⟩ := ih _ htask
    refine ⟨n + 1, w, Run.cons hstep hrun, ?_, hphase'.trans hphase, hidle,
      fun j hj => (hothers' j hj).trans (hothers j hj)⟩
    rw [hafter, hhub]
    rfl

/-- The server can do what the serial hub does. -/
theorem SerialHub.Rests.step {e : SerialEvent} {u : Server Unit} (hu : s.Rests u)
    (h : serialStep note s e = some t) :
    ∃ es v, Run (serverStep noObserver) u es v ∧ t.Rests v := by
  cases e with
  | serve r =>
    obtain ⟨hadm, hafter, hphase, _⟩ := serialStep_serve h
    have hserve : ∃ v, serverStep noObserver u (.serve r) = some v := by
      have hidle : u.pool.task r.thread = .ret () := hu.idle r.thread
      rw [serverStep, hu.hub, hu.phase, if_pos hadm, Pool.start, hidle]
      exact ⟨_, rfl⟩
    obtain ⟨v, hserve⟩ := hserve
    obtain ⟨_, _, hphase', hshared, htask, hothers⟩ := serverStep_serve hserve
    -- the handler is started and then makes all its calls with nobody in between
    obtain ⟨n, w, hrun, hafter', hphase'', hidle, hothers'⟩ := run_alone htask
    refine ⟨_, w, Run.cons hserve hrun, ?_, ?_, fun i => ?_⟩
    · rw [hafter', hafter, Server.hub, hshared, hu.hub]
    · rw [hphase'', hphase', hphase, hu.phase]
    · by_cases hi : i = r.thread
      · exact hi ▸ hidle
      · rw [Pool.Idle, hothers' i hi, hothers i hi]
        exact hu.idle i
  | timerFires ch timer =>
    obtain ⟨h', hf, rfl⟩ := Option.map_eq_some_iff.mp h
    obtain ⟨v, hv⟩ : ∃ v, serverStep noObserver u (.timerFires ch timer) = some v := by
      rw [serverStep, hu.hub, hf]
      exact ⟨_, rfl⟩
    obtain ⟨hf', hphase, _, htask⟩ := serverStep_timerFires hv
    refine ⟨_, v, Run.cons hv (Run.nil v), ?_, hphase.trans hu.phase, fun i => ?_⟩
    · rw [hu.hub, hf] at hf'
      exact (Option.some.inj hf').symm
    · rw [Pool.Idle, htask]
      exact hu.idle i
  | tick d =>
    obtain rfl := Option.some.inj h
    obtain ⟨v, hv⟩ : ∃ v, serverStep noObserver u (.tick d) = some v := ⟨_, rfl⟩
    obtain ⟨hhub, hphase, _, htask⟩ := serverStep_tick hv
    refine ⟨_, v, Run.cons hv (Run.nil v), ?_, hphase.trans hu.phase, fun i => ?_⟩
    · rw [hhub, hu.hub]
    · rw [Pool.Idle, htask]
      exact hu.idle i

/-- Every run of the serial hub is a run of the server, with all handlers finished at its end. -/
theorem SerialHub.refines {h : Hub} {g : γ} {es : List SerialEvent}
    (hrun : Run (serialStep note) (SerialHub.init h g) es s) :
    ∃ fs u, Run (serverStep noObserver) (Server.init h ()) fs u ∧ s.Rests u := by
  refine hrun.invariant (I := fun s => ∃ fs u, Run (serverStep noObserver) (Server.init h ()) fs u ∧
    s.Rests u) (fun s e t hs hstep => ?_) ⟨[], _, Run.nil _, rfl, rfl, fun _ => rfl⟩
  obtain ⟨fs, u, hr, hu⟩ := hs
  obtain ⟨gs, v, hr', hv⟩ := hu.step hstep
  exact ⟨fs ++ gs, v, hr.append hr', hv⟩

end Serial

/-- A registered client whose handlers are done is tuned to its channel. -/
theorem home_of_idle {cfg : Config} (hcfg : cfg.defaultChannels ≠ [])
    {recorder : Option AudioRecorder} {roipRelay : Bool} {heap : Clients} {now : ℤ}
    {es : List ServerEvent} {s : Server Unit}
    (hrun : Run (serverStep noObserver)
      (Server.init (newHub cfg recorder roipRelay heap now) ()) es s)
    {x : ClientRef} (hidle : s.pool.Idle (.client x)) :
    if s.phase x = .live then Home x s.hub else Away x s.hub :=
  ((hrun.invariant (underway_step noObserver)
    (underway_init noObserver () hcfg recorder roipRelay heap now)).idle hidle).2

theorem home_of_serial {γ : Type} {note : Request → Hub → Hub → γ → γ} {cfg : Config}
    (hcfg : cfg.defaultChannels ≠ []) {recorder : Option AudioRecorder} {roipRelay : Bool}
    {heap : Clients} {now : ℤ} {g : γ} {es : List SerialEvent} {s : SerialHub γ}
    (hrun : Run (serialStep note) (SerialHub.init (newHub cfg recorder roipRelay heap now) g) es s)
    (x : ClientRef) : if s.phase x = .live then Home x s.hub else Away x s.hub := by
  obtain ⟨fs, u, hr, hu⟩ := SerialHub.refines hrun
  have hhome := home_of_idle hcfg hr (hu.idle (.client x))
  rwa [hu.hub, hu.phase] at hhome

end TwoWayRadio

import TwoWayRadio.HubHandlers
import TwoWayRadio.Runs

/-! The running server: one goroutine for each connection, one for each fired timer, and the
UDP listener, all over one hub. -/
namespace TwoWayRadio

open Interleaving Transition

inductive Thread
  | client (client : ClientRef)
  | tot (ch : ChannelID) (timer : ℕ)
  | roip
deriving DecidableEq

/-- A client value is registered once and unregistered once. -/
inductive Phase
  | fresh | live | closed
deriving DecidableEq

/-- What starts a handler. -/
inductive Request
  | connect (client : ClientRef) (first : ℕ)
  | signal (client : ClientRef) (msg : ClientSignal) (choices : Choices)
  | audio (client : ClientRef) (data : Bytes)
  | disconnect (client : ClientRef)
  | totExpires (ch : ChannelID) (timer : ℕ)
  | datagram (data : Bytes)
deriving DecidableEq

namespace Request

def thread : Request → Thread
  | connect client _ | signal client _ _ | audio client _ | disconnect client => .client client
  | totExpires ch timer => .tot ch timer
  | datagram _ => .roip

def prog : Request → HubProg Unit
  | connect client first => Hub.registerClient client first
  | signal client msg choices => Hub.handleSignal client msg choices
  | audio client data => Hub.handleBinaryAudio client data
  | disconnect client => Hub.unregisterClient client
  | totExpires ch timer => Hub.totGoroutine ch timer
  | datagram data => Hub.roipDatagram data

/-- A connection serves its messages between its registration and its end, and the handler
of a timer waits for the timer to fire. -/
def admitted (h : Hub) (phase : ClientRef → Phase) : Request → Bool
  | connect client _ => phase client = .fresh
  | signal client _ _ | audio client _ | disconnect client => phase client = .live
  | totExpires ch timer =>
    h.readChannel ch false fun c => (c.timers[timer]?).any fun τ => τ.fired && !τ.ran
  | datagram _ => true

def phaseAfter (phase : ClientRef → Phase) : Request → ClientRef → Phase
  | connect client _ => Function.update phase client .live
  | disconnect client => Function.update phase client .closed
  | _ => phase

end Request

theorem Request.phaseAfter_of_ne {r : Request} {phase : ClientRef → Phase} {x : ClientRef}
    (hr : r.thread ≠ .client x) : r.phaseAfter phase x = phase x := by
  have hne : ∀ y, r.thread = .client y → x ≠ y := by
    rintro y hy rfl
    exact hr hy
  cases r with
  | connect y first => exact Function.update_of_ne (hne y rfl) ..
  | disconnect y => exact Function.update_of_ne (hne y rfl) ..
  | _ => rfl

inductive ServerEvent
  | serve (r : Request)
  | advance (i : Thread)
  | timerFires (ch : ChannelID) (timer : ℕ)
  | tick (d : ℕ)
deriving DecidableEq

/-- The thread that a step of the server moves. -/
def ServerEvent.thread : ServerEvent → Option Thread
  | serve r => some r.thread
  | advance i => some i
  | timerFires .. | tick _ => none

/-- A history kept beside the hub: what changes in it when a handler starts and at each call,
given the answer and the hub before the call. -/
structure Observer (γ : Type) where
  starts : Request → γ → γ
  sees : Thread → (op : HubOp) → op.Res → Hub → γ → γ

def noObserver : Observer Unit where
  starts := fun _ g => g
  sees := fun _ _ _ _ g => g

structure Server (γ : Type) where
  pool : Pool Thread HubOp.Res (Hub × γ)
  phase : ClientRef → Phase

namespace Server

variable {γ : Type}

def hub (s : Server γ) : Hub := s.pool.shared.1

def history (s : Server γ) : γ := s.pool.shared.2

def init (h : Hub) (g : γ) : Server γ where
  pool := ⟨(h, g), fun _ => .ret ()⟩
  phase := fun _ => .fresh

end Server

/-- A timer of some channel runs out. -/
def Hub.fireTimer (ch : ChannelID) (timer : ℕ) (h : Hub) : Option Hub :=
  match h.channels.lookup ch with
  | none => none
  | some c => (c.fireTimer timer).map fun c => { h with channels := h.channels.insert ch c }

theorem Hub.fireTimer_eq {ch : ChannelID} {timer : ℕ} {h h' : Hub}
    (hf : h.fireTimer ch timer = some h') :
    ∃ c c', h.channels.lookup ch = some c ∧ c.fireTimer timer = some c' ∧
      h' = { h with channels := h.channels.insert ch c' } := by
  unfold fireTimer at hf
  split at hf
  · cases hf
  · rename_i c hc
    obtain ⟨c', hfire, rfl⟩ := Option.map_eq_some_iff.mp hf
    exact ⟨c, c', hc, hfire, rfl⟩

variable {γ : Type}

def Observer.run (o : Observer γ) : Thread → (op : HubOp) → Hub × γ → op.Res × (Hub × γ) :=
  Pool.watch HubOp.run o.sees

def serverStep (o : Observer γ) (s : Server γ) : ServerEvent → Option (Server γ)
  | .serve r =>
    if r.admitted s.hub s.phase then
      (s.pool.start r.thread r.prog).map fun p =>
        { pool := { p with shared := (p.shared.1, o.starts r p.shared.2) },
          phase := r.phaseAfter s.phase }
    else none
  | .advance i => (s.pool.advance o.run i).map fun p => { s with pool := p }
  | .timerFires ch timer =>
    (s.hub.fireTimer ch timer).map fun h =>
      { s with pool := { s.pool with shared := (h, s.history) } }
  | .tick d =>
    some { s with pool := { s.pool with
      shared := ({ s.hub with now := s.hub.now + d }, s.history) } }

/-- A handler that runs without interruption, in the `n` calls it takes. -/
def uninterrupted (r : Request) (n : ℕ) : List ServerEvent :=
  .serve r :: List.replicate n (.advance r.thread)

variable {o : Observer γ} {s t : Server γ}

theorem serverStep_serve {r : Request} (h : serverStep o s (.serve r) = some t) :
    r.admitted s.hub s.phase = true ∧ s.pool.Idle r.thread ∧ t.phase = r.phaseAfter s.phase ∧
      t.pool.shared = (s.hub, o.starts r s.history) ∧ t.pool.task r.thread = r.prog ∧
      ∀ i, i ≠ r.thread → t.pool.task i = s.pool.task i := by
  simp only [serverStep] at h
  split_ifs at h with hadm
  obtain ⟨p, hp, rfl⟩ := Option.map_eq_some_iff.mp h
  obtain ⟨hidle, hshared, htask, hothers⟩ := Pool.start_eq hp
  refine ⟨hadm, hidle, rfl, ?_, htask, hothers⟩
  show (p.shared.1, o.starts r p.shared.2) = _
  rw [hshared]
  rfl

/-- A handler that starts changes nothing but the history. -/
theorem serverStep_starts {r : Request} (h : serverStep o s (.serve r) = some t) :
    t.hub = s.hub ∧ t.history = o.starts r s.history := by
  obtain ⟨_, _, _, hshared, _⟩ := serverStep_serve h
  constructor
  · rw [Server.hub, hshared]
  · rw [Server.history, hshared]

theorem serverStep_advance {i : Thread} (h : serverStep o s (.advance i) = some t) :
    ∃ op k, s.pool.task i = .call op k ∧ t.phase = s.phase ∧
      t.hub = (op.run s.hub).2 ∧ t.history = o.sees i op (op.run s.hub).1 s.hub s.history ∧
      t.pool.task i = k (op.run s.hub).1 ∧ ∀ j, j ≠ i → t.pool.task j = s.pool.task j := by
  obtain ⟨p, hp, rfl⟩ := Option.map_eq_some_iff.mp h
  obtain ⟨op, k, hk, hshared, htask, hothers⟩ := Pool.advance_eq hp
  exact ⟨op, k, hk, rfl, congrArg Prod.fst hshared, congrArg Prod.snd hshared, htask, hothers⟩

theorem serverStep_enabled {i : Thread} {op : HubOp} {k : op.Res → HubProg Unit}
    (hk : s.pool.task i = .call op k) : ∃ t, serverStep o s (.advance i) = some t := by
  rw [serverStep, Pool.advance, hk]
  exact ⟨_, rfl⟩

theorem serverStep_timerFires {ch : ChannelID} {timer : ℕ}
    (h : serverStep o s (.timerFires ch timer) = some t) :
    s.hub.fireTimer ch timer = some t.hub ∧ t.phase = s.phase ∧ t.history = s.history ∧
      t.pool.task = s.pool.task := by
  obtain ⟨h', hf, rfl⟩ := Option.map_eq_some_iff.mp h
  exact ⟨hf, rfl, rfl, rfl⟩

theorem serverStep_tick {d : ℕ} (h : serverStep o s (.tick d) = some t) :
    t.hub = { s.hub with now := s.hub.now + d } ∧ t.phase = s.phase ∧ t.history = s.history ∧
      t.pool.task = s.pool.task := by
  cases h
  exact ⟨rfl, rfl, rfl, rfl⟩

/-- A part of the hub that neither timers nor the clock are in is changed by calls alone. -/
theorem serverStep_part {α : Type*} {f : Hub → α}
    (hf : ∀ (h : Hub) channels now, f { h with channels := channels, now := now } = f h)
    {e : ServerEvent} (h : serverStep o s e = some t) :
    f t.hub = f s.hub ∨ ∃ i op k, e = .advance i ∧ s.pool.task i = .call op k ∧
      t.hub = (op.run s.hub).2 := by
  cases e with
  | serve r => exact Or.inl (congrArg f (serverStep_starts h).1)
  | advance i =>
    obtain ⟨op, k, hk, _, hhub, _⟩ := serverStep_advance h
    exact Or.inr ⟨i, op, k, rfl, hk, hhub⟩
  | timerFires ch timer =>
    obtain ⟨_, c, _, _, heq⟩ := Hub.fireTimer_eq (serverStep_timerFires h).1
    rw [heq]
    exact Or.inl (hf s.hub _ s.hub.now)
  | tick d =>
    rw [(serverStep_tick h).1]
    exact Or.inl (hf s.hub s.hub.channels _)

theorem serverStep_task {e : ServerEvent} {j : Thread} (h : serverStep o s e = some t)
    (hj : e.thread ≠ some j) : t.pool.task j = s.pool.task j := by
  cases e with
  | serve r =>
    obtain ⟨_, _, _, _, _, hothers⟩ := serverStep_serve h
    exact hothers j fun heq => hj (congrArg some heq.symm)
  | advance i =>
    obtain ⟨_, _, _, _, _, _, _, hothers⟩ := serverStep_advance h
    exact hothers j fun heq => hj (congrArg some heq.symm)
  | timerFires ch timer =>
    obtain ⟨_, _, _, htask⟩ := serverStep_timerFires h
    rw [htask]
  | tick d =>
    obtain ⟨_, _, _, htask⟩ := serverStep_tick h
    rw [htask]

/-- What every handler's calls satisfy holds of the calls still to be made. -/
theorem tasks_all_step {P : Thread → HubOp → Prop} (hP : ∀ r : Request, r.prog.All (P r.thread))
    (hs : ∀ i, (s.pool.task i).All (P i)) {e : ServerEvent} (h : serverStep o s e = some t)
    (i : Thread) :
    (t.pool.task i).All (P i) := by
  by_cases he : e.thread = some i
  swap
  · rw [serverStep_task h he]
    exact hs i
  cases e with
  | serve r =>
    obtain rfl : r.thread = i := Option.some.inj he
    obtain ⟨_, _, _, _, htask, _⟩ := serverStep_serve h
    rw [htask]
    exact hP r
  | advance j =>
    obtain rfl : j = i := Option.some.inj he
    obtain ⟨op, k, hk, _, _, _, htask, _⟩ := serverStep_advance h
    have hcalls := hs j
    rw [hk] at hcalls
    rw [htask]
    exact hcalls.2 _
  | timerFires ch timer => cases he
  | tick d => cases he

/-- A thread that no event of a run moves stays where it is. -/
theorem task_of_unmoved {es : List ServerEvent} {j : Thread}
    (hrun : Run (serverStep o) s es t) (hj : ∀ e ∈ es, e.thread ≠ some j) :
    t.pool.task j = s.pool.task j := by
  induction hrun with
  | nil => rfl
  | cons h _ ih =>
    rw [ih fun e he => hj e (List.mem_cons_of_mem _ he)]
    exact serverStep_task h (hj _ List.mem_cons_self)

/-- All is idle after a run if the threads that it moves are. -/
theorem idle_of_members (members : List Thread) {es : List ServerEvent}
    (hrun : Run (serverStep o) s es t) (hes : ∀ e ∈ es, ∀ i ∈ e.thread, i ∈ members)
    (hs : ∀ i, i ∉ members → s.pool.Idle i) (ht : ∀ i ∈ members, t.pool.Idle i) (i : Thread) :
    t.pool.Idle i := by
  by_cases hi : i ∈ members
  · exact ht i hi
  · exact (task_of_unmoved hrun fun e he heq => hi (hes e he i heq)).trans (hs i hi)

end TwoWayRadio

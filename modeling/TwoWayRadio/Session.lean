import TwoWayRadio.FloorHistory
import TwoWayRadio.RadioHotMic

/-! One unit's page, its connection, and the hub with all the other units: the frames of the page
reach its `ReadPump` in order, those for the page pass two queues, `WritePump` and the socket. -/
namespace TwoWayRadio
open Interleaving Transition

/-- What `WritePump` is at: not started, about to look at `highPri`, or waiting on both queues. -/
inductive WritePump
  | off | polling | waiting
deriving DecidableEq

/-- `conn` is the hub's client of the open connection, `wire` what is written to its socket and
not yet handled by the page. The queues are as long as they need to be. -/
structure Session where
  radio : RadioState
  conn : Option ClientRef
  server : Server FloorHistory
  highPri : List Frame
  send : List Frame
  pump : WritePump
  wire : List Frame

namespace Session

/-- A page without a connection. -/
def init (radio : RadioState) (server : Server FloorHistory) : Session where
  radio := { radio with wsOpen := false, uplink := [] }
  conn := none
  server := server
  highPri := []
  send := []
  pump := .off
  wire := []

def hub (s : Session) : Hub := s.server.hub

/-- The frames on their way to the page. -/
def downlink (s : Session) : List Frame := s.highPri ++ s.send ++ s.wire

end Session

/-- The frame of a delivery into one of a client's queues. -/
def Delivery.queued (x : ClientRef) (queue : QueueKind) : Delivery → Option Frame
  | .enqueue y q frame => if y = x ∧ q = queue then some frame else none
  | .relay .. => none

/-- What a step of the server puts into a queue of the connection. -/
def enqueued (conn : Option ClientRef) (queue : QueueKind) (h h' : Hub) : List Frame :=
  conn.elim [] fun x => (h'.outbox.drop h.outbox.length).filterMap (Delivery.queued x queue)

/-- What `ReadPump` makes of a frame. -/
def ClientFrame.request (x : ClientRef) (choices : Choices) : ClientFrame → Request
  | text msg => .signal x msg choices
  | binary data => .audio x data

/-- `onmessage`; audio only goes to the loudspeaker. -/
def RadioState.onMessage (frame : Frame) (s : RadioState) : RadioState :=
  match frame with
  | .json msg _ => s.handleSignalingMessage msg
  | .binary _ => s

/-- The statuses that take the key from the user. -/
def FloorStatus.unkeys : FloorStatus → Bool
  | denied | busy | timeout => true
  | granted | idle => false

/-- What a frame says about the floor of channel `c`. -/
def Frame.status (c : ChannelID) : Frame → Option FloorStatus
  | json (.floorStatus p) _ => if p.channelID = c then some p.status else none
  | _ => none

/-- What the page does by itself, unlike what it is told and what becomes of its socket. -/
def RadioEvent.isLocal : RadioEvent → Bool
  | floorStatus _ | socket _ => false
  | _ => true

/-- Messages of the floor and of channel switching. -/
def ClientSignal.steers : ClientSignal → Bool
  | pttDown | pttUp | joinChannel _ | createChannel _ => true
  | _ => false

/-- The submit button of the create-channel form. -/
def RadioState.submitChannel (p : CreateChannelPayload) (s : RadioState) : RadioState :=
  if p.name = "" then s else s.wsSend [.text (.createChannel { value := p })]

/-- The messages of client `x` are served in no other way than from its socket. -/
def ServerEvent.readsFrom (x : ClientRef) : ServerEvent → Bool
  | serve (.signal y _ _) | serve (.audio y _) => y = x
  | _ => false

inductive SessionEvent
  | page (e : RadioEvent)
  | submitChannel (p : CreateChannelPayload)
  -- any other message of the page
  | sends (msg : ClientSignal)
  | receive (choices : Choices)
  | server (e : ServerEvent)
  -- one round of `WritePump`'s first `select`, then of its second
  | poll
  | write (queue : QueueKind)
  | deliver
  | opens (x : ClientRef) (first : ℕ)
  | closes
deriving DecidableEq

namespace Session

def serve (e : ServerEvent) (s : Session) : Option Session :=
  (serverStep floorObserver s.server e).map fun t =>
    { s with
      server := t,
      highPri := s.highPri ++ enqueued s.conn .highPri s.hub t.hub,
      send := s.send ++ enqueued s.conn .send s.hub t.hub }

end Session

def sessionStep (s : Session) : SessionEvent → Option Session
  | .page e => if e.isLocal then some { s with radio := radioEvent s.radio e } else none
  | .submitChannel p => some { s with radio := s.radio.submitChannel p }
  | .sends msg => if msg.steers then none else some { s with radio := s.radio.wsSend [.text msg] }
  | .receive choices =>
    match s.conn, s.radio.uplink with
    | some x, frame :: uplink =>
      { s with radio := { s.radio with uplink := uplink } }.serve
        (.serve (frame.request x choices))
    | _, _ => none
  | .server e => if s.conn.any fun x => e.readsFrom x then none else s.serve e
  | .poll =>
    match s.pump, s.conn with
    | .off, some x =>
      if s.server.pool.Idle (.client x) then some { s with pump := .polling } else none
    | .polling, _ =>
      match s.highPri with
      | [] => some { s with pump := .waiting }
      | frame :: highPri => some { s with highPri := highPri, wire := s.wire ++ [frame] }
    | _, _ => none
  | .write queue =>
    match s.pump, queue, s.highPri, s.send with
    | .waiting, .highPri, frame :: highPri, _ =>
      some { s with pump := .polling, highPri := highPri, wire := s.wire ++ [frame] }
    | .waiting, .send, _, frame :: send =>
      some { s with pump := .polling, send := send, wire := s.wire ++ [frame] }
    | _, _, _, _ => none
  | .deliver =>
    match s.wire with
    | [] => none
    | frame :: wire => some { s with wire := wire, radio := s.radio.onMessage frame }
  | .opens x first =>
    if s.conn = none then
      { s with
        conn := some x, highPri := [], send := [], pump := .off, wire := [],
        radio := { s.radio with wsOpen := true, uplink := [] } }.serve (.serve (.connect x first))
    else none
  | .closes =>
    if s.conn = none then none
    else some { s with
      conn := none, highPri := [], send := [], pump := .off, wire := [],
      radio := { s.radio with wsOpen := false, uplink := [] } }

namespace Session

variable {s t : Session}

theorem serve_eq {e : ServerEvent} (h : s.serve e = some t) :
    serverStep floorObserver s.server e = some t.server ∧ t.radio = s.radio ∧ t.conn = s.conn ∧
      t.wire = s.wire ∧ t.highPri = s.highPri ++ enqueued s.conn .highPri s.hub t.hub ∧
      t.send = s.send ++ enqueued s.conn .send s.hub t.hub := by
  obtain ⟨u, hu, rfl⟩ := Option.map_eq_some_iff.mp h
  exact ⟨hu, rfl, rfl, rfl, rfl, rfl⟩

/-- What a step of a session does to the server and the connection. -/
inductive ServerStep (s : Session) (e : SessionEvent) (t : Session) : Prop
  | none (hserver : t.server = s.server) (hconn : t.conn = s.conn ∨ t.conn = none)
  | page (x : ClientRef) (r : Request) (hx : s.conn = some x) (hr : r.thread = .client x)
      (hstep : serverStep floorObserver s.server (.serve r) = some t.server)
      (hconn : t.conn = s.conn)
  | hub (e' : ServerEvent) (he : e = .server e')
      (hstep : serverStep floorObserver s.server e' = some t.server) (hconn : t.conn = s.conn)
  | opens (x : ClientRef) (first : ℕ) (he : e = .opens x first)
      (hstep : serverStep floorObserver s.server (.serve (.connect x first)) = some t.server)
      (hconn : t.conn = some x)

theorem server_step {e : SessionEvent} (h : sessionStep s e = some t) : ServerStep s e t := by
  cases e with
  | page e =>
    simp only [sessionStep] at h
    split_ifs at h
    cases h
    exact .none rfl (Or.inl rfl)
  | submitChannel p =>
    cases h
    exact .none rfl (Or.inl rfl)
  | sends msg =>
    simp only [sessionStep] at h
    split_ifs at h
    cases h
    exact .none rfl (Or.inl rfl)
  | receive choices =>
    simp only [sessionStep] at h
    split at h
    · rename_i x frame uplink hconn huplink
      obtain ⟨hstep, _, hconn', _⟩ := serve_eq h
      exact .page x _ hconn (by cases frame <;> rfl) hstep hconn'
    · cases h
  | server e =>
    simp only [sessionStep] at h
    split_ifs at h
    obtain ⟨hstep, _, hconn, _⟩ := serve_eq h
    exact .hub e rfl hstep hconn
  | poll =>
    simp only [sessionStep] at h
    split at h
    · split_ifs at h
      cases h
      exact .none rfl (Or.inl rfl)
    · split at h <;> cases h <;> exact .none rfl (Or.inl rfl)
    · cases h
  | write queue =>
    simp only [sessionStep] at h
    split at h <;> cases h <;> exact .none rfl (Or.inl rfl)
  | deliver =>
    simp only [sessionStep] at h
    split at h <;> cases h
    exact .none rfl (Or.inl rfl)
  | opens x first =>
    simp only [sessionStep] at h
    split_ifs at h
    obtain ⟨hstep, _, hconn, _⟩ := serve_eq h
    exact .opens x first rfl hstep hconn
  | closes =>
    simp only [sessionStep] at h
    split_ifs at h
    cases h
    exact .none rfl (Or.inr rfl)

/-- What every step of the server keeps holds in every session. -/
theorem server_invariant {I : Server FloorHistory → Prop} {es : List SessionEvent}
    (hrun : Run sessionStep s es t)
    (hstep : ∀ s e t, I s → serverStep floorObserver s e = some t → I t) (hs : I s.server) :
    I t.server := by
  refine hrun.invariant (I := fun s => I s.server) (fun s e t hs h => ?_) hs
  cases server_step h with
  | none hserver => exact hserver ▸ hs
  | page x r hx hr hs' => exact hstep _ _ _ hs hs'
  | hub e' he hs' => exact hstep _ _ _ hs hs'
  | opens x first he hs' => exact hstep _ _ _ hs hs'

/-- The hub moves no thread but those of units `x` and `y`, and only `x` connects the page. -/
def InvolvesTwo (x y : ClientRef) : SessionEvent → Bool
  | .server e => e.thread = some (.client x) ∨ e.thread = some (.client y)
  | .opens z _ => z = x
  | _ => true

/-- A session between two units in which both are idle at the end leaves all threads idle. -/
theorem idle_of_two {x y : ClientRef} {es : List SessionEvent} (hrun : Run sessionStep s es t)
    (hes : ∀ e ∈ es, InvolvesTwo x y e = true) (hconn : s.conn = none)
    (hs : ∀ i, s.server.pool.Idle i) (hx : t.server.pool.Idle (.client x))
    (hy : t.server.pool.Idle (.client y)) (i : Thread) : t.server.pool.Idle i := by
  by_cases hix : i = .client x
  · exact hix ▸ hx
  by_cases hiy : i = .client y
  · exact hiy ▸ hy
  -- no step moves another thread, and no third unit gets the connection
  have hkeeps : ∀ {s t : Session} {e : SessionEvent}, InvolvesTwo x y e = true →
      (s.conn = none ∨ s.conn = some x) ∧ s.server.pool.Idle i → sessionStep s e = some t →
      (t.conn = none ∨ t.conn = some x) ∧ t.server.pool.Idle i := by
    intro s t e he hs h
    cases server_step h with
    | none hserver hconn =>
      rw [hserver]
      refine ⟨?_, hs.2⟩
      rcases hconn with hconn | hconn
      · exact hconn ▸ hs.1
      · exact Or.inl hconn
    | page z r hz hr hstep hconn =>
      have hzx : z = x := by
        rcases hs.1 with hnone | hsome
        · cases hnone.symm.trans hz
        · exact Option.some.inj (hz.symm.trans hsome)
      refine ⟨hconn ▸ hs.1, (serverStep_task hstep fun heq => hix ?_).trans hs.2⟩
      rw [← Option.some.inj heq, ← hzx, ← hr]
    | hub e' he' hstep hconn =>
      subst he'
      refine ⟨hconn ▸ hs.1, (serverStep_task hstep fun heq => ?_).trans hs.2⟩
      rcases of_decide_eq_true he with hthread | hthread
      · exact hix (Option.some.inj (heq.symm.trans hthread))
      · exact hiy (Option.some.inj (heq.symm.trans hthread))
    | opens z first he' hstep hconn =>
      subst he'
      have hzx : z = x := of_decide_eq_true he
      refine ⟨Or.inr (hzx ▸ hconn), (serverStep_task hstep fun heq => hix ?_).trans hs.2⟩
      rw [← Option.some.inj heq, ← hzx]
      rfl
  have hinv : ∀ {s t : Session} {es : List SessionEvent}, Run sessionStep s es t →
      (∀ e ∈ es, InvolvesTwo x y e = true) →
      (s.conn = none ∨ s.conn = some x) ∧ s.server.pool.Idle i →
      (t.conn = none ∨ t.conn = some x) ∧ t.server.pool.Idle i := by
    intro s t es hrun
    induction hrun with
    | nil => exact fun _ hs => hs
    | cons h _ ih =>
      intro hes hs
      exact ih (fun e he => hes e (List.mem_cons_of_mem _ he))
        (hkeeps (hes _ List.mem_cons_self) hs h)
  exact (hinv hrun hes ⟨Or.inl hconn, hs i⟩).2

end Session

end TwoWayRadio

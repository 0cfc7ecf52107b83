import TwoWayRadio.CloseSafety
import TwoWayRadio.Progress
import TwoWayRadio.WritePump

/-! A client's connection with its two pumps. Whichever of the three fails first, the others follow,
and the client is unregistered once. -/
namespace TwoWayRadio
open BoundedChannel CriticalSections Interleaving RWMutex Transition

/-- Where `ReadPump` is: at `ReadMessage`, in a handler, before its deferred `UnregisterClient`,
before its deferred `Close`, or past that. -/
inductive Reader
  | reading
  | handling
  | unregistering
  | closing
  | returned
deriving DecidableEq

/-- A client with its connection. Among the goroutines that call its methods, `none` is the one
that runs `ReadPump`. -/
structure Connection (ι : Type) where
  outlet : Outlet (Option ι) := {}
  reader : Reader := .reading
  /-- What the peer has sent and `ReadMessage` has not returned. -/
  inbox : ℕ := 0
  /-- Closed, here or by the peer. -/
  broken : Bool := false
  /-- The goroutine whose `Close` found the client open, until it has closed the connection. -/
  closer : Option (Option (Option ι)) := none
  /-- How often the connection has been closed here, and the client unregistered. -/
  hangups : ℕ := 0
  unregistered : ℕ := 0

inductive ConnEvent (ι : Type)
  | arrive
  | drop
  /-- `ReadMessage` gives up on its own: the read deadline, the read limit, a close frame. -/
  | deadline
  | readMessage
  | handled
  | unregister
  | deferClose
  /-- `Close` is past the lock and closes the connection. -/
  | hangup
  | outlet (e : OutletEvent (Option ι))

/-- The events that the program brings about by itself: no message or call, no tick, no failure. -/
def OutletEvent.own {ι : Type} : OutletEvent ι → Bool
  | call _ _ | select .ticker => false
  | _ => true

def ConnEvent.own {ι : Type} : ConnEvent ι → Bool
  | arrive | drop | deadline => false
  | outlet e => e.own
  | _ => true

def OutletEvent.turns {ι : Type} : OutletEvent ι → Option (Option ι)
  | turn i => some i
  | _ => none

variable {ι : Type}

/-- The handlers that send to the client run in the goroutines of other clients, or in its own while
`ReadPump` is in one; only the pumps call `Close`. Whether a write fails is left open. -/
def Connection.permits (s : Connection ι) : OutletEvent (Option ι) → Bool
  | .call none c => s.reader = .handling && c.mode = .read
  | .call (some _) c => c.mode = .read
  | _ => true

/-- The client's queues go on. -/
def Connection.goesOn (s : Connection ι) (e : OutletEvent (Option ι)) (o : Outlet (Option ι)) :
    Connection ι :=
  { s with
    outlet := o
    closer :=
      if o.room.shared.isClosed && !s.outlet.room.shared.isClosed then e.turns else s.closer }

section Step

variable [Fintype ι] [DecidableEq ι]

def connStep (s : Connection ι) : ConnEvent ι → Option (Connection ι)
  | .arrive => if s.broken then none else some { s with inbox := s.inbox + 1 }
  | .drop => some { s with broken := true }
  | .deadline =>
    match s.reader with
    | .reading => some { s with reader := .unregistering }
    | _ => none
  | .readMessage =>
    match s.reader with
    | .reading =>
      if 0 < s.inbox then some { s with reader := .handling, inbox := s.inbox - 1 }
      else if s.broken then some { s with reader := .unregistering }
      else none
    | _ => none
  | .handled =>
    match s.reader with
    | .handling =>
      if (s.outlet.room.locks (some none)).rest = [] then some { s with reader := .reading }
      else none
    | _ => none
  | .unregister =>
    match s.reader with
    | .unregistering =>
      some { s with reader := .closing, unregistered := s.unregistered + 1 }
    | _ => none
  | .deferClose =>
    match s.reader with
    | .closing =>
      (outletStep s.outlet (.call none .close)).map fun o =>
        { s with outlet := o, reader := .returned }
    | _ => none
  | .hangup =>
    match s.closer with
    | some i =>
      if (s.outlet.room.locks i).rest = [] then
        some { s with broken := true, closer := none, hangups := s.hangups + 1 }
      else none
    | none => none
  | .outlet e =>
    if s.permits e then (outletStep s.outlet e).map fun o => s.goesOn e o
    else none

/-- What a step can do. -/
inductive ConnEffect (s t : Connection ι) : ConnEvent ι → Prop
  | arrives (ht : t = { s with inbox := s.inbox + 1 }) : ConnEffect s t .arrive
  | drops (ht : t = { s with broken := true }) : ConnEffect s t .drop
  | expires (hs : s.reader = .reading) (ht : t = { s with reader := .unregistering }) :
    ConnEffect s t .deadline
  | reads (hs : s.reader = .reading) (hinbox : 0 < s.inbox)
      (ht : t = { s with reader := .handling, inbox := s.inbox - 1 }) : ConnEffect s t .readMessage
  | fails (hs : s.reader = .reading) (ht : t = { s with reader := .unregistering }) :
    ConnEffect s t .readMessage
  | handles (hs : s.reader = .handling) (ht : t = { s with reader := .reading }) :
    ConnEffect s t .handled
  | unregisters (hs : s.reader = .unregistering)
      (ht : t = { s with reader := .closing, unregistered := s.unregistered + 1 }) :
    ConnEffect s t .unregister
  | defers (o : Outlet (Option ι)) (hs : s.reader = .closing)
      (ho : outletStep s.outlet (.call none .close) = some o)
      (ht : t = { s with outlet := o, reader := .returned }) : ConnEffect s t .deferClose
  | hangsUp (i : Option (Option ι)) (hs : s.closer = some i)
      (ht : t = { s with broken := true, closer := none, hangups := s.hangups + 1 }) :
    ConnEffect s t .hangup
  | goesOn (e : OutletEvent (Option ι)) (o : Outlet (Option ι)) (hs : s.permits e = true)
      (ho : outletStep s.outlet e = some o) (ht : t = s.goesOn e o) : ConnEffect s t (.outlet e)

theorem connStep_effect {s t : Connection ι} {e : ConnEvent ι} (h : connStep s e = some t) :
    ConnEffect s t e := by
  cases e with
  | arrive =>
    simp only [connStep] at h
    split at h
    · cases h
    · exact .arrives (Option.some.inj h).symm
  | drop => exact .drops (Option.some.inj h).symm
  | deadline =>
    simp only [connStep] at h
    split at h
    · rename_i hreader
      exact .expires hreader (Option.some.inj h).symm
    · cases h
  | readMessage =>
    simp only [connStep] at h
    split at h
    · rename_i hreader
      split at h
      · rename_i hinbox
        exact .reads hreader hinbox (Option.some.inj h).symm
      · split at h
        · exact .fails hreader (Option.some.inj h).symm
        · cases h
    · cases h
  | handled =>
    simp only [connStep] at h
    split at h
    · rename_i hreader
      split at h
      · exact .handles hreader (Option.some.inj h).symm
      · cases h
    · cases h
  | unregister =>
    simp only [connStep] at h
    split at h
    · rename_i hreader
      exact .unregisters hreader (Option.some.inj h).symm
    · cases h
  | deferClose =>
    simp only [connStep] at h
    split at h
    · rename_i hreader
      obtain ⟨o, ho, ht⟩ := Option.map_eq_some_iff.mp h
      exact .defers o hreader ho ht.symm
    · cases h
  | hangup =>
    simp only [connStep] at h
    split at h
    · rename_i i hcloser
      split at h
      · exact .hangsUp i hcloser (Option.some.inj h).symm
      · cases h
    · cases h
  | outlet e =>
    simp only [connStep] at h
    split at h
    · rename_i hpermits
      obtain ⟨o, ho, ht⟩ := Option.map_eq_some_iff.mp h
      exact .goesOn e o hpermits ho ht.symm
    · cases h

end Step

/-! ### What is left to do -/

instance : ∀ op : ClientOp, Fintype op.Res
  | .readClosed => inferInstanceAs (Fintype Bool)
  | .setClosed | .close _ => inferInstanceAs (Fintype Unit)
  | .on _ (.trySend _) => inferInstanceAs (Fintype Bool)
  | .on _ .evict => inferInstanceAs (Fintype Unit)

theorem depth_body (c : ClientCall) : c.body.depth = 4 := by
  cases c with
  | send c => rfl
  | sendPriorityJSON msg timestamp => rfl
  | sendPriorityRawJSON msg timestamp => rfl
  | close => rfl

def ClientQueues.queued (c : ClientQueues) : ℕ :=
  (c.chan .highPri).buffer.length + (c.chan .send).buffer.length

def Pump.work : Pump → ℕ
  | .write _ _ _ | .ping => 32
  | .poll => 31
  | .wait => 30
  | .returning => 29
  | .returned => 0

def Reader.work : Reader → ℕ
  | .handling => 32
  | .reading => 31
  | .unregistering => 30
  | .closing => 29
  | .returned => 0

section Work

variable [Fintype ι] {s t : Outlet ι}

/-- A call under the lock may put a message into a queue, which takes three steps to write. -/
def Outlet.work (s : Outlet ι) : ℕ := s.room.work 5 + 3 * s.room.shared.queued + s.pump.work

def Connection.work (s : Connection ι) : ℕ :=
  s.outlet.work + s.reader.work + 2 * s.inbox + s.closer.elim 0 fun _ => 1

theorem queued_update (c : ClientQueues) (q : QueueKind) (d : Chan Frame) :
    ({ c with chan := Function.update c.chan q d } : ClientQueues).queued +
      (c.chan q).buffer.length = c.queued + d.buffer.length := by
  cases q with
  | highPri =>
    show d.buffer.length + (c.chan .send).buffer.length + _ = _ + _ + _
    omega
  | send =>
    show (c.chan .highPri).buffer.length + d.buffer.length + _ = _ + _ + _
    omega

/-- What a method does under the lock adds one message at most. -/
theorem queued_run (op : ClientOp) (c : ClientQueues) : (op.run c).2.queued ≤ c.queued + 1 := by
  cases op with
  | readClosed => exact Nat.le_succ _
  | setClosed => exact Nat.le_succ _
  | close q => exact Nat.le_succ _
  | on q op =>
    have hchan {d : Chan Frame} (hd : d.buffer.length ≤ (c.chan q).buffer.length + 1) :
        ({ c with chan := Function.update c.chan q d } : ClientQueues).queued ≤ c.queued + 1 := by
      have hsum := queued_update c q d
      omega
    cases op with
    | trySend data =>
      simp only [ClientOp.run]
      split
      · exact Nat.le_succ _
      · refine hchan ?_
        simp only [Op.run]
        split
        · exact le_of_eq (List.length_append ..)
        · exact Nat.le_succ _
    | evict =>
      refine hchan ?_
      simp only [Op.run]
      split
      · exact Nat.le_succ _
      · rename_i a rest hbuf
        rw [hbuf]
        exact (Nat.le_succ _).trans (Nat.le_succ _)

theorem work_received {q : QueueKind} {message : Frame} {rest : Chan Frame}
    (htake : (s.room.shared.chan q).take = some (message, rest)) :
    (s.received q message rest).work + 3 + s.pump.work = s.work + 32 := by
  have hsum := queued_update s.room.shared q rest
  rw [(Chan.take_eq htake).1, List.length_cons] at hsum
  have hqueued : (s.received q message rest).room.shared.queued + 1 = s.room.shared.queued :=
    Nat.add_right_cancel ((Nat.add_right_comm ..).trans hsum)
  show s.room.work 5 + 3 * (s.received q message rest).room.shared.queued + 32 + 3 + s.pump.work =
    s.room.work 5 + 3 * s.room.shared.queued + s.pump.work + 32
  omega

theorem work_move (p : Pump) :
    ({ s with pump := p } : Outlet ι).work + s.pump.work = s.work + p.work := by
  show s.room.work 5 + 3 * s.room.shared.queued + p.work + s.pump.work =
    s.room.work 5 + 3 * s.room.shared.queued + s.pump.work + p.work
  omega

theorem work_lt_of_move {p : Pump} (hp : p.work < s.pump.work) :
    ({ s with pump := p } : Outlet ι).work < s.work := by
  have hwork := work_move (s := s) p
  omega

/-- The pump has more to do after a receive, but less than the message was to the queue. -/
theorem work_receive {q : QueueKind} (h : s.receive q = some t) (hs : 30 ≤ s.pump.work) :
    t.room.shared.isClosed = s.room.shared.isClosed ∧ t.work < s.work := by
  obtain ⟨message, rest, htake, rfl⟩ := receive_some h
  have hwork := work_received htake
  exact ⟨rfl, by omega⟩

variable [DecidableEq ι]

theorem work_call {i : ι} {c : ClientCall} (h : outletStep s (.call i c) = some t) :
    t.room.shared.isClosed = s.room.shared.isClosed ∧ t.work ≤ s.work + 28 := by
  obtain ⟨room, hroom, rfl⟩ := Option.map_eq_some_iff.mp h
  have hwork := Room.work_enter (c := 5) hroom
  rw [depth_body] at hwork
  refine ⟨by rw [Room.enter_shared hroom], ?_⟩
  show room.work 5 + 3 * room.shared.queued + s.pump.work ≤
    s.room.work 5 + 3 * s.room.shared.queued + s.pump.work + 28
  rw [Room.enter_shared hroom]
  omega

/-- A turn under the lock may close the client and put a message into a queue. -/
theorem work_turn (hord : ∀ j, (s.room.locks j).Orderly rank) {i : Option ι}
    (h : outletStep s (.turn i) = some t) :
    t.work + 2 ≤ s.work ∨
      (t.room.shared.isClosed = s.room.shared.isClosed ∧ t.work < s.work) := by
  obtain ⟨room, hroom, rfl⟩ := Option.map_eq_some_iff.mp h
  rcases Room.work_turn (c := 5) hord hroom with ⟨op, hshared, hwork⟩ | ⟨hshared, hwork⟩
  · have hqueued := queued_run op s.room.shared
    rw [← hshared] at hqueued
    left
    show room.work 5 + 3 * room.shared.queued + s.pump.work + 2 ≤
      s.room.work 5 + 3 * s.room.shared.queued + s.pump.work
    omega
  · refine Or.inr ⟨by rw [hshared], ?_⟩
    show room.work 5 + 3 * room.shared.queued + s.pump.work <
      s.room.work 5 + 3 * s.room.shared.queued + s.pump.work
    rw [hshared]
    omega

theorem work_poll (h : outletStep s .poll = some t) :
    t.room.shared.isClosed = s.room.shared.isClosed ∧ t.work < s.work := by
  simp only [outletStep] at h
  split at h
  · rename_i hpump
    rw [← Option.some.inj h, Outlet.poll]
    split
    · rename_i u hu
      exact work_receive hu (by rw [hpump]; decide)
    · refine ⟨rfl, work_lt_of_move ?_⟩
      rw [hpump]
      split <;> decide
  · cases h

/-- The ticker is not the program's own, so it may set the pump to work. -/
theorem work_select {r : Ready} (h : outletStep s (.select r) = some t) :
    t.room.shared.isClosed = s.room.shared.isClosed ∧
      ((OutletEvent.select r : OutletEvent ι).own = true → t.work < s.work) ∧
        t.work ≤ s.work + 28 := by
  simp only [outletStep] at h
  split at h
  · rename_i hpump
    cases r with
    | ticker =>
      rw [← Option.some.inj h]
      have hwork := work_move (s := s) .ping
      rw [hpump] at hwork
      refine ⟨rfl, fun hown => (by cases hown), ?_⟩
      have hping : Pump.ping.work = Pump.wait.work + 2 := rfl
      omega
    | queue q =>
      have hless : t.room.shared.isClosed = s.room.shared.isClosed ∧ t.work < s.work := by
        simp only [Outlet.select] at h
        split at h
        · rename_i u hu
          rw [← Option.some.inj h]
          exact work_receive hu (by rw [hpump]; decide)
        · split at h
          · rw [← Option.some.inj h]
            exact ⟨rfl, work_lt_of_move (by rw [hpump]; decide)⟩
          · cases h
      exact ⟨hless.1, fun _ => hless.2, hless.2.le.trans (Nat.le_add_right _ _)⟩
  · cases h

theorem work_wrote {ok : Bool} (h : outletStep s (.wrote ok) = some t) :
    t.room.shared.isClosed = s.room.shared.isClosed ∧ t.work < s.work := by
  simp only [outletStep, Outlet.wrote] at h
  split at h
  · rename_i q index message hpump
    split at h
    · rw [← Option.some.inj h]
      refine ⟨rfl, work_lt_of_move (p := .poll) ?_⟩
      rw [hpump]
      exact Nat.lt_succ_self 31
    · rw [← Option.some.inj h]
      refine ⟨rfl, work_lt_of_move ?_⟩
      rw [hpump]
      exact Nat.lt_of_sub_pos (Nat.zero_lt_succ 2)
  · rename_i hpump
    rw [← Option.some.inj h]
    refine ⟨rfl, work_lt_of_move ?_⟩
    rw [hpump]
    split <;> decide
  · cases h

/-- The pump's `Close` is a call, but it comes out of the pump's own work. -/
theorem work_deferClose (h : outletStep s .deferClose = some t) :
    t.room.shared.isClosed = s.room.shared.isClosed ∧ t.work < s.work := by
  simp only [outletStep] at h
  split at h
  · rename_i hpump
    obtain ⟨room, hroom, rfl⟩ := Option.map_eq_some_iff.mp h
    have hwork := Room.work_enter (c := 5) hroom
    have hdepth : closeLocked.depth = 4 := rfl
    rw [hdepth] at hwork
    refine ⟨by rw [Room.enter_shared hroom], ?_⟩
    show room.work 5 + 3 * room.shared.queued + 0 <
      s.room.work 5 + 3 * s.room.shared.queued + s.pump.work
    have hreturning : Pump.returning.work = 29 := rfl
    rw [Room.enter_shared hroom, hpump, hreturning]
    omega
  · cases h

/-- What an event of the queues takes off the work, or adds to it. -/
theorem outlet_work (hord : ∀ j, (s.room.locks j).Orderly rank) {e : OutletEvent ι}
    (h : outletStep s e = some t) :
    ((∃ i, e = .turn i) ∧ t.work + 2 ≤ s.work) ∨
      (t.room.shared.isClosed = s.room.shared.isClosed ∧ (e.own = true → t.work < s.work) ∧
        t.work ≤ s.work + 28) := by
  have hless {p : Prop} (hlt : t.room.shared.isClosed = s.room.shared.isClosed ∧
      t.work < s.work) : t.room.shared.isClosed = s.room.shared.isClosed ∧
        (p → t.work < s.work) ∧ t.work ≤ s.work + 28 :=
    ⟨hlt.1, fun _ => hlt.2, hlt.2.le.trans (Nat.le_add_right _ _)⟩
  cases e with
  | call i c =>
    obtain ⟨hclosed, hle⟩ := work_call h
    exact Or.inr ⟨hclosed, fun hown => (by cases hown), hle⟩
  | turn i => exact (work_turn hord h).imp (fun hle => ⟨⟨i, rfl⟩, hle⟩) hless
  | poll => exact Or.inr (hless (work_poll h))
  | select r => exact Or.inr (work_select h)
  | wrote ok => exact Or.inr (hless (work_wrote h))
  | deferClose => exact Or.inr (hless (work_deferClose h))

/-- Every event of the program's own leaves it less to do. -/
theorem conn_work {s t : Connection ι}
    (hord : ∀ j, (s.outlet.room.locks j).Orderly rank) {e : ConnEvent ι}
    (h : connStep s e = some t) :
    (e.own = true → t.work < s.work) ∧ t.work ≤ s.work + 28 := by
  have hless (hlt : t.work < s.work) : (e.own = true → t.work < s.work) ∧ t.work ≤ s.work + 28 :=
    ⟨fun _ => hlt, hlt.le.trans (Nat.le_add_right _ _)⟩
  have hreader (r : Reader) (n : ℕ) (hr : r.work < s.reader.work) :
      ({ s with reader := r, unregistered := n } : Connection ι).work < s.work :=
    Nat.add_lt_add_right (Nat.add_lt_add_right (Nat.add_lt_add_left hr _) _) _
  cases connStep_effect h with
  | arrives ht =>
    refine ⟨fun hown => (by cases hown), ?_⟩
    rw [ht]
    show s.outlet.work + s.reader.work + 2 * (s.inbox + 1) + s.closer.elim 0 (fun _ => 1) ≤
      s.outlet.work + s.reader.work + 2 * s.inbox + s.closer.elim 0 (fun _ => 1) + 28
    omega
  | drops ht =>
    refine ⟨fun hown => (by cases hown), ?_⟩
    rw [ht]
    exact Nat.le_add_right _ _
  | expires hs ht =>
    refine hless ?_
    rw [ht]
    exact hreader .unregistering s.unregistered (by rw [hs]; decide)
  | reads hs hinbox ht =>
    refine hless ?_
    rw [ht]
    show s.outlet.work + 32 + 2 * (s.inbox - 1) + s.closer.elim 0 (fun _ => 1) <
      s.outlet.work + s.reader.work + 2 * s.inbox + s.closer.elim 0 (fun _ => 1)
    rw [hs]
    have hreading : Reader.reading.work = 31 := rfl
    omega
  | fails hs ht =>
    refine hless ?_
    rw [ht]
    exact hreader .unregistering s.unregistered (by rw [hs]; decide)
  | handles hs ht =>
    refine hless ?_
    rw [ht]
    exact hreader .reading s.unregistered (by rw [hs]; decide)
  | unregisters hs ht =>
    refine hless ?_
    rw [ht]
    exact hreader .closing (s.unregistered + 1) (by rw [hs]; decide)
  | defers o hs ho ht =>
    -- the call of `Close` costs what its place had in reserve
    have hcall : o.work ≤ s.outlet.work + 28 := by
      rcases outlet_work hord ho with ⟨⟨i, hi⟩, _⟩ | ⟨_, _, hle⟩
      · cases hi
      · exact hle
    refine hless ?_
    rw [ht]
    show o.work + 0 + 2 * s.inbox + s.closer.elim 0 (fun _ => 1) <
      s.outlet.work + s.reader.work + 2 * s.inbox + s.closer.elim 0 (fun _ => 1)
    rw [hs]
    have hclosing : Reader.closing.work = 29 := rfl
    omega
  | hangsUp i hs ht =>
    refine hless ?_
    rw [ht]
    show s.outlet.work + s.reader.work + 2 * s.inbox + 0 <
      s.outlet.work + s.reader.work + 2 * s.inbox + s.closer.elim 0 (fun _ => 1)
    rw [hs]
    exact Nat.lt_succ_self _
  | goesOn e o hs ho ht =>
    have hcloser : t.closer.elim 0 (fun _ => 1) ≤ 1 := by
      cases t.closer with
      | none => exact Nat.zero_le 1
      | some i => exact le_rfl
    have hwork : t.work = o.work + s.reader.work + 2 * s.inbox + t.closer.elim 0 fun _ => 1 := by
      rw [ht]
      rfl
    have hbefore : s.work =
        s.outlet.work + s.reader.work + 2 * s.inbox + s.closer.elim 0 fun _ => 1 := rfl
    rcases outlet_work hord ho with ⟨_, hle⟩ | ⟨hclosed, hown, hle⟩
    · -- whoever closes the queues goes on to close the connection
      exact hless (by omega)
    · have hsame : t.closer = s.closer := by
        rw [ht, Connection.goesOn, hclosed, Bool.and_not_self]
        rfl
      rw [hsame] at hwork
      refine ⟨fun he => ?_, ?_⟩
      · have hlt := hown he
        omega
      · omega

end Work

/-! ### What a stopped pump leaves behind -/

/-- The goroutine has called `Close`, and the call returns only when the client is closed. -/
def Outlet.Closes (i : Option ι) (s : Outlet ι) : Prop :=
  s.closeReturned = true ∨ (s.room.locks i).rest = locked .write () [] ∨
    (s.room.locks i).rest = [.release .write ()]

section Closing

variable [Fintype ι] [DecidableEq ι]

theorem closes_step {s t : Outlet ι} (hs : Shutdown s) {e : OutletEvent ι}
    (h : outletStep s e = some t) {i : Option ι} (hi : s.Closes i) : t.Closes i := by
  rcases hi with hret | hwrites
  · exact Or.inl (closeReturned_step h hret)
  · have hsame (hlocks : t.room.locks i = s.room.locks i) : t.Closes i := by
      right
      rw [hlocks]
      exact hwrites
    cases (outletStep_effect h).room with
    | enters j c henter _ =>
      apply hsame
      unfold Room.enter at henter
      split at henter
      · rename_i hidle
        -- the goroutine itself has something to do, so it is another one that begins a call
        have hne : i ≠ j := by
          rintro rfl
          rw [hidle] at hwrites
          rcases hwrites with h | h <;> cases h
        rw [← Option.some.inj henter]
        exact Function.update_of_ne hne ..
      · cases henter
    | turns j hturn hreturned =>
      rcases Room.turn_eq hturn with ⟨_, _, _, _, _, _, hroom⟩ | ⟨hbody, locks, hlocks, hroom⟩
      · exact hsame (by rw [hroom])
      · have hrest : t.room.locks = locks := by rw [hroom]
        rcases writer_step hs.sound.orderly hlocks hwrites with h | h | ⟨rfl, hrelease⟩
        · exact Or.inr (Or.inl (by rw [hrest, h]))
        · exact Or.inr (Or.inr (by rw [hrest, h]))
        · -- it leaves the lock, and with that the call has returned
          left
          have hleaves : s.room.Leaves .write j :=
            ⟨hrelease, by rw [hbody ⟨.write, [], hrelease⟩]; rfl⟩
          rw [hreturned, decide_eq_true hleaves, Bool.or_true]
    | receives q message rest _ ht =>
      apply hsame
      rw [ht]
      rfl
    | stays hroom _ => exact hsame (by rw [hroom])

omit [Fintype ι] in
theorem closes_enter {s t : Outlet ι} {i : Option ι} {p : Prog ClientOp.Res Unit}
    {room : Room (Option ι) ClientOp.Res ClientQueues} (h : s.room.enter i .write p = some room)
    (ht : t.room = room) : t.Closes i := by
  unfold Room.enter at h
  split at h
  · right
    left
    rw [ht, ← Option.some.inj h]
    show (Function.update s.room.locks i _ i).rest = _
    rw [Function.update_self]
    rfl
  · cases h

theorem attended_outlet {s t : Outlet ι} (hs : Shutdown s) (hattended : Attended s.room.locks)
    {e : OutletEvent ι} (h : outletStep s e = some t) : Attended t.room.locks := by
  cases (outletStep_effect h).room with
  | enters i c henter _ => exact attended_enter hs.sound.orderly hattended henter
  | turns i hturn _ => exact attended_turn hattended hturn
  | receives q message rest _ ht =>
    rw [ht]
    exact hattended
  | stays hroom _ =>
    rw [hroom]
    exact hattended

/-- `WritePump` returns by calling `Close`, and then it is over. -/
theorem writer_outlet {s t : Outlet ι} {e : OutletEvent ι} (h : outletStep s e = some t) :
    (t.pump = .returned → s.pump = .returned ∨ t.Closes none) ∧ (s.pump.Over → t.pump.Over) := by
  have hsame (hpump : t.pump = s.pump) :
      (t.pump = .returned → s.pump = .returned ∨ t.Closes none) ∧
        (s.pump.Over → t.pump.Over) := by
    rw [hpump]
    exact ⟨Or.inl, id⟩
  have hopen {p : Pump} (hpump : s.pump = p) (hp : ¬ p.Over) (ht : t.pump ≠ .returned) :
      (t.pump = .returned → s.pump = .returned ∨ t.Closes none) ∧
        (s.pump.Over → t.pump.Over) := by
    rw [hpump]
    exact ⟨fun h => (ht h).elim, fun h => (hp h).elim⟩
  have hreceived {q : QueueKind} (hu : s.receive q = some t) : t.pump ≠ .returned := by
    obtain ⟨message, rest, _, rfl⟩ := receive_some hu
    exact fun heq => by cases heq
  have hnot {p : Pump} (h₁ : p ≠ .returning) (h₂ : p ≠ .returned) : ¬ p.Over :=
    fun h => h.elim h₁ h₂
  cases e with
  | call i c =>
    obtain ⟨room, _, rfl⟩ := Option.map_eq_some_iff.mp h
    exact hsame rfl
  | turn i =>
    obtain ⟨room, _, rfl⟩ := Option.map_eq_some_iff.mp h
    exact hsame rfl
  | poll =>
    simp only [outletStep] at h
    split at h
    · rename_i hpump
      refine hopen hpump (hnot (by simp) (by simp)) ?_
      rw [Option.some.injEq, Outlet.poll] at h
      split at h
      · rename_i u hu
        exact hreceived (hu.trans (congrArg some h))
      · rw [← h]
        dsimp only
        split <;> exact fun heq => by cases heq
    · cases h
  | select r =>
    simp only [outletStep] at h
    split at h
    · rename_i hpump
      refine hopen hpump (hnot (by simp) (by simp)) ?_
      cases r with
      | ticker =>
        rw [← Option.some.inj h]
        exact fun heq => by cases heq
      | queue q =>
        simp only [Outlet.select] at h
        split at h
        · rename_i u hu
          exact hreceived (hu.trans h)
        · split at h
          · rw [← Option.some.inj h]
            exact fun heq => by cases heq
          · cases h
    · cases h
  | wrote ok =>
    simp only [outletStep, Outlet.wrote] at h
    split at h
    · rename_i q index message hpump
      refine hopen hpump (hnot (by simp) (by simp)) ?_
      split at h
      · rw [← Option.some.inj h]
        exact fun heq => by cases heq
      · rw [← Option.some.inj h]
        exact fun heq => by cases heq
    · rename_i hpump
      refine hopen hpump (hnot (by simp) (by simp)) ?_
      rw [← Option.some.inj h]
      dsimp only
      split <;> exact fun heq => by cases heq
    · cases h
  | deferClose =>
    simp only [outletStep] at h
    split at h
    · obtain ⟨room, hroom, rfl⟩ := Option.map_eq_some_iff.mp h
      exact ⟨fun _ => Or.inr (closes_enter hroom rfl), fun _ => Or.inr rfl⟩
    · cases h

/-- What is true of a connection in every run. -/
structure Tended (s : Connection ι) : Prop where
  shutdown : Shutdown s.outlet
  attended : Attended s.outlet.room.locks
  writer : s.outlet.pump = .returned → s.outlet.Closes none
  reader : s.reader = .returned → s.outlet.Closes (some none)
  closer : s.hangups + s.closer.elim 0 (fun _ => 1) =
    if s.outlet.room.shared.isClosed = true then 1 else 0
  hangups : 0 < s.hangups → s.broken = true
  unregistered : s.unregistered = if s.reader = .closing ∨ s.reader = .returned then 1 else 0

omit [Fintype ι] [DecidableEq ι] in
theorem tended_init : Tended ({} : Connection ι) where
  shutdown := shutdown_init
  attended := attended_start _
  writer h := by cases h
  reader h := by cases h
  closer := rfl
  hangups h := by cases h
  unregistered := rfl

theorem tended_step {s t : Connection ι} (hs : Tended s) {e : ConnEvent ι}
    (h : connStep s e = some t) : Tended t := by
  -- the queues take a step, and the reader stays where it is or has just called `Close`
  have houtlet {e' : OutletEvent (Option ι)} {o : Outlet (Option ι)}
      (ho : outletStep s.outlet e' = some o) : Shutdown o ∧ Attended o.room.locks ∧
        (o.pump = .returned → o.Closes none) := by
    refine ⟨shutdown_step hs.shutdown ho, attended_outlet hs.shutdown hs.attended ho,
      fun hpump => ?_⟩
    rcases (writer_outlet ho).1 hpump with hbefore | hcloses
    · exact closes_step hs.shutdown ho (hs.writer hbefore)
    · exact hcloses
  have hreader {r : Reader} {m n : ℕ} (hr : r ≠ .returned)
      (hcount : n = if r = .closing ∨ r = .returned then 1 else 0) :
      Tended { s with reader := r, inbox := m, unregistered := n } :=
    ⟨hs.shutdown, hs.attended, hs.writer, fun heq => (hr heq).elim, hs.closer, hs.hangups, hcount⟩
  have hcount := hs.unregistered
  cases connStep_effect h with
  | arrives ht =>
    rw [ht]
    exact ⟨hs.shutdown, hs.attended, hs.writer, hs.reader, hs.closer, hs.hangups, hcount⟩
  | drops ht =>
    rw [ht]
    exact ⟨hs.shutdown, hs.attended, hs.writer, hs.reader, hs.closer, fun _ => rfl, hcount⟩
  | expires hr ht =>
    rw [hr] at hcount
    rw [ht]
    exact hreader (by decide) hcount
  | reads hr _ ht =>
    rw [hr] at hcount
    rw [ht]
    exact hreader (by decide) hcount
  | fails hr ht =>
    rw [hr] at hcount
    rw [ht]
    exact hreader (by decide) hcount
  | handles hr ht =>
    rw [hr] at hcount
    rw [ht]
    exact hreader (by decide) hcount
  | unregisters hr ht =>
    rw [hr] at hcount
    rw [ht]
    exact hreader (by decide) (congrArg (· + 1) hcount)
  | defers o hr ho ht =>
    rw [hr] at hcount
    obtain ⟨hshutdown, hattended, hwriter⟩ := houtlet ho
    obtain ⟨room, hroom, hroom'⟩ := Option.map_eq_some_iff.mp ho
    have hclosed : o.room.shared.isClosed = s.outlet.room.shared.isClosed := by
      rw [← hroom', Room.enter_shared hroom]
    rw [ht]
    refine ⟨hshutdown, hattended, hwriter, fun _ => closes_enter hroom (by rw [← hroom']), ?_,
      hs.hangups, hcount⟩
    rw [hclosed]
    exact hs.closer
  | hangsUp i hi ht =>
    have hcloser := hs.closer
    rw [hi] at hcloser
    rw [ht]
    exact ⟨hs.shutdown, hs.attended, hs.writer, hs.reader, hcloser, fun _ => rfl, hcount⟩
  | goesOn e' o _ ho ht =>
    obtain ⟨hshutdown, hattended, hwriter⟩ := houtlet ho
    have hcloser := hs.closer
    have hmono : s.outlet.room.shared.isClosed = true → o.room.shared.isClosed = true := by
      obtain ⟨_, hframe | hclosing⟩ := framed_or_closing hs.shutdown ho
      · exact fun hclosed => hframe.isClosed.trans hclosed
      · exact hclosing.isClosed
    rw [ht]
    refine ⟨hshutdown, hattended, hwriter, fun hr => closes_step hs.shutdown ho (hs.reader hr),
      ?_, hs.hangups, hcount⟩
    unfold Connection.goesOn
    dsimp only
    cases hbefore : s.outlet.room.shared.isClosed with
    | true =>
      rw [hmono hbefore, Bool.not_true, Bool.and_false]
      rw [hbefore] at hcloser
      exact hcloser
    | false =>
      rw [hbefore] at hcloser
      rcases outlet_work hs.shutdown.sound.orderly ho with ⟨⟨i, rfl⟩, _⟩ | ⟨hsame, _⟩
      · cases hafter : o.room.shared.isClosed with
        | true =>
          -- this goroutine is the one that finds the client open
          have hnone : s.hangups = 0 := (Nat.add_eq_zero_iff.mp hcloser).1
          rw [hnone]
          rfl
        | false => exact hcloser
      · rw [hsame, hbefore]
        exact hcloser

/-- The connection is closed, or one of the pumps has stopped. -/
def Connection.Fails (s : Connection ι) : Prop :=
  s.broken = true ∨ (s.reader ≠ .reading ∧ s.reader ≠ .handling) ∨ s.outlet.pump.Over

/-- Nothing of the client's goroutines is left, and what they had to clean up is cleaned up once. -/
structure Connection.TornDown (s : Connection ι) : Prop where
  reader : s.reader = .returned
  writer : s.outlet.pump = .returned
  idle : ∀ i, (s.outlet.room.locks i).rest = []
  unregistered : s.unregistered = 1
  hangups : s.hangups = 1
  closes : ∀ q, s.outlet.room.shared.closes q = 1

/-- A connection that has failed does not recover. -/
theorem fails_step {s t : Connection ι} {e : ConnEvent ι} (h : connStep s e = some t)
    (hs : s.Fails) : t.Fails := by
  have hreader {r : Reader} (hr : s.reader = r) (h₁ : r = .reading ∨ r = .handling) :
      s.broken = true ∨ s.outlet.pump.Over := by
    rcases hs with hbroken | ⟨hreading, hhandling⟩ | hover
    · exact Or.inl hbroken
    · rcases h₁ with h₁ | h₁
      · exact (hreading (hr.trans h₁)).elim
      · exact (hhandling (hr.trans h₁)).elim
    · exact Or.inr hover
  have hstopped (r : Reader) (hne : r ≠ .reading ∧ r ≠ .handling) (hr : t.reader = r) :
      t.Fails := by
    rw [← hr] at hne
    exact Or.inr (Or.inl hne)
  cases connStep_effect h with
  | arrives ht =>
    rw [ht]
    exact hs
  | drops ht =>
    rw [ht]
    exact Or.inl rfl
  | expires _ ht => exact hstopped .unregistering (by decide) (congrArg Connection.reader ht)
  | reads hr _ ht =>
    rw [ht]
    exact (hreader hr (Or.inl rfl)).imp id Or.inr
  | fails _ ht => exact hstopped .unregistering (by decide) (congrArg Connection.reader ht)
  | handles hr ht =>
    rw [ht]
    exact (hreader hr (Or.inr rfl)).imp id Or.inr
  | unregisters _ ht => exact hstopped .closing (by decide) (congrArg Connection.reader ht)
  | defers o _ _ ht => exact hstopped .returned (by decide) (congrArg Connection.reader ht)
  | hangsUp i _ ht =>
    rw [ht]
    exact Or.inl rfl
  | goesOn e' o _ ho ht =>
    rw [ht]
    exact hs.imp id (Or.imp id (writer_outlet ho).2)

omit [Fintype ι] in
theorem enter_idle {s : Room (Option ι) ClientOp.Res ClientQueues} {i : Option ι}
    (hidle : (s.locks i).rest = []) (mode : Mode) (p : Prog ClientOp.Res Unit) :
    s.enter i mode p ≠ none := by
  rw [Room.enter, if_pos hidle]
  exact Option.some_ne_none _

/-- A `WritePump` that cannot go on, with nobody inside the lock, has returned, or it waits at
queues that are empty and open. -/
theorem writer_of_stuck {s : Outlet ι} (hidle : ∀ i, (s.room.locks i).rest = [])
    (hstuck : ∀ e : OutletEvent ι, e.own = true → outletStep s e = none) :
    s.pump = .returned ∨ (s.pump = .wait ∧ s.room.shared.closed .send = false) := by
  cases hpump : s.pump with
  | poll =>
    have h := hstuck .poll rfl
    simp only [outletStep, hpump] at h
    cases h
  | wait =>
    have h := hstuck (.select (.queue .send)) rfl
    simp only [outletStep, hpump, Outlet.select] at h
    split at h
    · cases h
    · split at h
      · cases h
      · rename_i hopen
        exact Or.inr ⟨rfl, Bool.eq_false_iff.mpr hopen⟩
  | write q index message =>
    have h := hstuck (.wrote false) rfl
    simp only [outletStep, Outlet.wrote, hpump] at h
    cases h
  | ping =>
    have h := hstuck (.wrote false) rfl
    simp only [outletStep, Outlet.wrote, hpump] at h
    cases h
  | returning =>
    have h := hstuck .deferClose rfl
    simp only [outletStep, hpump] at h
    exact (enter_idle (hidle none) .write closeLocked (Option.map_eq_none_iff.mp h)).elim
  | returned => exact Or.inl rfl

/-- A client that has failed and can do nothing more by itself has nothing left to do. -/
theorem tornDown_of_stuck {s : Connection ι} (hs : Tended s) (hfails : s.Fails)
    (hstuck : ∀ e : ConnEvent ι, e.own = true → connStep s e = none) : s.TornDown := by
  have houtlet (e : OutletEvent (Option ι)) (hown : e.own = true) :
      outletStep s.outlet e = none := by
    have hpermits : s.permits e = true := by
      cases e with
      | call i c => cases hown
      | _ => rfl
    have h := hstuck (.outlet e) hown
    simp only [connStep, hpermits, if_true] at h
    exact Option.map_eq_none_iff.mp h
  have hidle (i : Option (Option ι)) : (s.outlet.room.locks i).rest = [] := by
    by_contra hbusy
    obtain ⟨j, hj⟩ := exists_turn ClientOp.run hs.shutdown.sound.orderly hs.attended hbusy
    rw [Option.map_eq_none_iff.mp (houtlet (.turn j) rfl)] at hj
    cases hj
  have hcloser : s.closer = none := by
    cases hi : s.closer with
    | none => rfl
    | some i =>
      have h := hstuck .hangup rfl
      simp only [connStep, hi, hidle i, if_true] at h
      cases h
  -- a pump that has called `Close` has left the client closed
  have hclosed {i : Option (Option ι)} (hi : s.outlet.Closes i) :
      s.outlet.room.shared.isClosed = true ∧
        ∀ q, s.outlet.room.shared.closes q = 1 := by
    rcases hi with hret | hrest | hrest
    · exact hs.shutdown.returned hret
    · rw [hidle i] at hrest
      cases hrest
    · rw [hidle i] at hrest
      cases hrest
  have hhangups (h : s.outlet.room.shared.isClosed = true) : s.hangups = 1 := by
    have hcount := hs.closer
    rw [hcloser, h] at hcount
    exact hcount
  have hwriter := writer_of_stuck hidle houtlet
  have hreader : s.reader = .returned := by
    cases hr : s.reader with
    | reading =>
      have h := hstuck .readMessage rfl
      simp only [connStep, hr] at h
      have hbroken : ¬ s.broken = true := by
        intro hbroken
        rw [if_pos hbroken] at h
        split at h <;> cases h
      rcases hfails with hbroken' | ⟨hreading, _⟩ | hover
      · exact (hbroken hbroken').elim
      · exact (hreading hr).elim
      · -- `WritePump` has stopped, so it has closed the connection
        have hreturned : s.outlet.pump = .returned := by
          rcases hwriter with hreturned | ⟨hwait, _⟩
          · exact hreturned
          · rw [hwait] at hover
            rcases hover with h | h <;> cases h
        have hone := hhangups (hclosed (hs.writer hreturned)).1
        exact (hbroken (hs.hangups (by omega))).elim
    | handling =>
      have h := hstuck .handled rfl
      simp only [connStep, hr, hidle (some none), if_true] at h
      cases h
    | unregistering =>
      have h := hstuck .unregister rfl
      simp only [connStep, hr] at h
      cases h
    | closing =>
      have h := hstuck .deferClose rfl
      simp only [connStep, hr] at h
      exact (enter_idle (hidle (some none)) .write closeLocked
        (Option.map_eq_none_iff.mp (Option.map_eq_none_iff.mp h))).elim
    | returned => rfl
  obtain ⟨hisClosed, hcloses⟩ := hclosed (hs.reader hreader)
  have hcount := hs.unregistered
  rw [hreader] at hcount
  refine ⟨hreader, ?_, hidle, hcount, hhangups hisClosed, hcloses⟩
  rcases hwriter with hreturned | ⟨_, hopen⟩
  · exact hreturned
  · -- it would have found its queue closed
    have hagrees : FlagAgrees s.outlet.room.shared := by
      apply hs.shutdown.sound.inv
      intro i hwrite
      have hd := (hs.shutdown.sound.orderly i).disciplined
      rw [hidle i] at hd
      have hheld : (s.outlet.room.locks i).held = [] := hd
      rw [hheld] at hwrite
      cases hwrite
    rw [(hagrees .send).1, hisClosed] at hopen
    cases hopen

/-- Once the connection has broken or one of the pumps has stopped, the program comes to an end with
the client whatever else happens: between two messages, calls or ticks it can take only so many
steps by itself, and it can always take one until both pumps have returned, the connection and the
queues have been closed and the client unregistered, each just once. -/
theorem connection_ends {es : List (ConnEvent ι)} {s : Connection ι} (r : Run connStep {} es s)
    (hfails : s.Fails) {es' : List (ConnEvent ι)} {t : Connection ι}
    (r' : Run connStep s es' t) :
    es'.countP ConnEvent.own ≤ s.work + 28 * (es'.countP fun e => !e.own) ∧
      t.unregistered ≤ 1 ∧ t.hangups ≤ 1 ∧
      ((∀ e : ConnEvent ι, e.own = true → connStep t e = none) → t.TornDown) := by
  have hs : Tended s := r.invariant (fun _ _ _ hs h => tended_step hs h) tended_init
  have ht : Tended t := r'.invariant (fun _ _ _ hs h => tended_step hs h) hs
  have htfails : t.Fails := r'.invariant (fun _ _ _ hs h => fails_step h hs) hfails
  have hwork := r'.countP_le ConnEvent.own Connection.work 28
    (fun _ _ _ hs h => tended_step hs h)
    (fun _ _ _ hs hown h => (conn_work hs.shutdown.sound.orderly h).1 hown)
    (fun _ _ _ hs _ h => (conn_work hs.shutdown.sound.orderly h).2) hs
  refine ⟨by omega, ?_, ?_, tornDown_of_stuck ht htfails⟩
  · rw [ht.unregistered]
    split <;> decide
  · have hcount := ht.closer
    split at hcount <;> omega

/-- The peer goes while its last message is handled and another goroutine sends to the client. -/
def droppedRun : List (ConnEvent Bool) :=
  [.arrive, .readMessage, .outlet (.call (some true) (.send (.sendBinary [1]))),
    .outlet (.turn (some (some true))), .drop]

/-- `ReadPump` closes the client when that goroutine has left, and `WritePump` follows. -/
def cleanup : List (ConnEvent Bool) :=
  [.handled, .readMessage, .unregister, .deferClose, .outlet (.turn (some none))] ++
    List.replicate 3 (.outlet (.turn (some (some true)))) ++
    List.replicate 6 (.outlet (.turn (some none))) ++
    [.hangup, .outlet .poll, .outlet .deferClose] ++ List.replicate 4 (.outlet (.turn none))

theorem connection_ends_dropped : ∃ s t : Connection Bool, Run connStep {} droppedRun s ∧
    s.Fails ∧ Run connStep s cleanup t ∧ 21 ≤ s.work ∧ t.unregistered ≤ 1 ∧ t.hangups ≤ 1 := by
  have r := run_get connStep ({} : Connection Bool) droppedRun (by decide +kernel)
  have r' := run_get connStep ((droppedRun.foldlM connStep ({} : Connection Bool)).get
    (by decide +kernel)) cleanup (by decide +kernel)
  have hfails : ((droppedRun.foldlM connStep ({} : Connection Bool)).get
      (by decide +kernel)).Fails := Or.inl (by decide +kernel)
  obtain ⟨hsteps, hunregistered, hhangups, _⟩ := connection_ends r hfails r'
  exact ⟨_, _, r, hfails, r', hsteps, hunregistered, hhangups⟩

end Closing

end TwoWayRadio

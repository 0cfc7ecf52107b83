import Mathlib.Data.Fintype.Option
import TwoWayRadio.CriticalSections
import TwoWayRadio.SendQueue

/-! The two outgoing queues of a client, the methods that fill and close them under its mutex, and
`WritePump`, which empties them without it. -/
namespace TwoWayRadio
open BoundedChannel CriticalSections Interleaving RWMutex

structure ClientQueues where
  chan : QueueKind → Chan Frame := fun _ => {}
  closed : QueueKind → Bool := fun _ => false
  closes : QueueKind → ℕ := fun _ => 0
  isClosed : Bool := false
  /-- Some goroutine has sent on a closed channel or has closed one again. -/
  panicked : Bool := false

/-- What the methods do under `mu`. -/
inductive ClientOp
  | readClosed
  | setClosed
  | close (q : QueueKind)
  | on (q : QueueKind) (op : Op Frame)

@[reducible] def ClientOp.Res : ClientOp → Type
  | readClosed => Bool
  | setClosed => Unit
  | close _ => Unit
  | on _ op => op.Res

def ClientOp.run : (op : ClientOp) → ClientQueues → op.Res × ClientQueues
  | readClosed, c => (c.isClosed, c)
  | setClosed, c => ((), { c with isClosed := true })
  | close q, c =>
    ((), { c with
      closed := Function.update c.closed q true
      closes := Function.update c.closes q (c.closes q + 1)
      panicked := c.panicked || c.closed q })
  | on q (.trySend data), c =>
    -- a `select` panics on a closed channel, whatever its `default`
    if c.closed q then (false, { c with panicked := true })
    else
      ((Op.run q.size (.trySend data) (c.chan q)).1, { c with
        chan := Function.update c.chan q (Op.run q.size (.trySend data) (c.chan q)).2 })
  | on q .evict, c =>
    ((), { c with chan := Function.update c.chan q (Op.run q.size .evict (c.chan q)).2 })

/-- `enqueue` and `enqueuePriority`, with the lock held. -/
def enqueueLocked (q : QueueKind) (data : Frame) : Prog ClientOp.Res Unit := do
  let isClosed ← Prog.perform .readClosed
  (q.enqueue isClosed data).lift (.on q) fun _ r => r

/-- `Close`, with the lock held. -/
def closeLocked : Prog ClientOp.Res Unit := do
  let isClosed ← Prog.perform .readClosed
  if isClosed then pure ()
  else
    Prog.perform ClientOp.setClosed
    Prog.perform (ClientOp.close .highPri)
    Prog.perform (ClientOp.close .send)

/-- The methods of a client that take `mu`. -/
inductive ClientCall
  | send (c : SendCall)
  | sendPriorityJSON (msg : Signal) (timestamp : ℤ)
  | sendPriorityRawJSON (msg : Signal) (timestamp : ℤ)
  | close

def ClientCall.mode : ClientCall → Mode
  | close => .write
  | _ => .read

def ClientCall.body : ClientCall → Prog ClientOp.Res Unit
  | send c => enqueueLocked .send c.frame
  | sendPriorityJSON msg timestamp => enqueueLocked .highPri (.json msg timestamp)
  | sendPriorityRawJSON msg timestamp => enqueueLocked .highPri (.json msg timestamp)
  | close => closeLocked

/-- Where `WritePump` is: before its poll of `highPri`, before its `select`, with a message or a
ping to write, before its deferred `Close`, or past that. -/
inductive Pump
  | poll
  | wait
  | write (q : QueueKind) (index : ℕ) (message : Frame)
  | ping
  | returning
  | returned

/-- A message that has been written, and how many were enqueued in its queue before it. -/
structure Written where
  queue : QueueKind
  index : ℕ
  message : Frame

/-- A client with its goroutines; `none` is the one that runs `WritePump`. What has been taken from
the queues, what has been written and whether a `Close` has returned is on record. -/
structure Outlet (ι : Type) where
  room : Room (Option ι) ClientOp.Res ClientQueues := Room.start {}
  pump : Pump := .poll
  taken : List (QueueKind × ℕ) := []
  written : List Written := []
  closeReturned : Bool := false

/-- The cases of the `select` that can be ready. -/
inductive Ready
  | queue (q : QueueKind)
  | ticker

inductive OutletEvent (ι : Type)
  | call (i : ι) (c : ClientCall)
  /-- A goroutine goes on with the method that it is in. -/
  | turn (i : Option ι)
  | poll
  | select (r : Ready)
  /-- `WriteMessage` returns, with an error or without. -/
  | wrote (ok : Bool)
  | deferClose

variable {ι : Type}

/-- The pump has received a message and left the rest in the queue. -/
def Outlet.received (q : QueueKind) (message : Frame) (rest : Chan Frame) (s : Outlet ι) :
    Outlet ι :=
  { s with
    room := { s.room with shared := { s.room.shared with
      chan := Function.update s.room.shared.chan q rest } }
    pump := .write q (s.room.shared.chan q).gone message
    taken := s.taken ++ [(q, (s.room.shared.chan q).gone)] }

/-- The pump receives from a queue, if there is a message. -/
def Outlet.receive (q : QueueKind) (s : Outlet ι) : Option (Outlet ι) :=
  (s.room.shared.chan q).take.map fun p => s.received q p.1 p.2

theorem receive_some {s t : Outlet ι} {q : QueueKind} (h : s.receive q = some t) :
    ∃ message rest, (s.room.shared.chan q).take = some (message, rest) ∧
      t = s.received q message rest := by
  obtain ⟨p, hp, rfl⟩ := Option.map_eq_some_iff.mp h
  exact ⟨p.1, p.2, hp, rfl⟩

def Outlet.poll (s : Outlet ι) : Outlet ι :=
  match s.receive .highPri with
  | some t => t
  | none => { s with pump := if s.room.shared.closed .highPri then .returning else .wait }

def Outlet.select (s : Outlet ι) : Ready → Option (Outlet ι)
  | .ticker => some { s with pump := .ping }
  | .queue q =>
    match s.receive q with
    | some t => some t
    | none => if s.room.shared.closed q then some { s with pump := .returning } else none

def Outlet.wrote (s : Outlet ι) (ok : Bool) : Option (Outlet ι) :=
  match s.pump with
  | .write q index message =>
    if ok then some { s with pump := .poll, written := s.written ++ [⟨q, index, message⟩] }
    else some { s with pump := .returning }
  | .ping => some { s with pump := if ok then .poll else .returning }
  | _ => none

section Step

variable [Fintype ι] [DecidableEq ι]

def outletStep (s : Outlet ι) : OutletEvent ι → Option (Outlet ι)
  | .call i c => (s.room.enter (some i) c.mode c.body).map fun room => { s with room := room }
  | .turn i =>
    (s.room.turn ClientOp.run i).map fun room =>
      { s with room := room, closeReturned := s.closeReturned || s.room.Leaves .write i }
  | .poll =>
    match s.pump with
    | .poll => some s.poll
    | _ => none
  | .select r =>
    match s.pump with
    | .wait => s.select r
    | _ => none
  | .wrote ok => s.wrote ok
  | .deferClose =>
    match s.pump with
    | .returning =>
      (s.room.enter none .write closeLocked).map fun room =>
        { s with room := room, pump := .returned }
    | _ => none

/-- What a step can do. -/
inductive OutletEffect (s t : Outlet ι) : Prop
  | enters (i : Option ι) (c : ClientCall) (room : Room (Option ι) ClientOp.Res ClientQueues)
      (h : s.room.enter i c.mode c.body = some room) (ht : t = { s with room := room })
  | turns (i : Option ι) (room : Room (Option ι) ClientOp.Res ClientQueues)
      (h : s.room.turn ClientOp.run i = some room)
      (ht : t = { s with
        room := room, closeReturned := s.closeReturned || s.room.Leaves .write i })
  | receives (q : QueueKind) (message : Frame) (rest : Chan Frame)
      (hs : (s.pump = .poll ∧ q = .highPri) ∨ s.pump = .wait)
      (htake : (s.room.shared.chan q).take = some (message, rest))
      (ht : t = s.received q message rest)
  | waits (hs : s.pump = .poll) (hempty : (s.room.shared.chan .highPri).take = none)
      (ht : t = { s with pump := .wait })
  | writes (q : QueueKind) (index : ℕ) (message : Frame) (hs : s.pump = .write q index message)
      (ht : t = { s with pump := .poll, written := s.written ++ [⟨q, index, message⟩] })
  | pings (p : Pump) (hs : (s.pump = .wait ∧ p = .ping) ∨ (s.pump = .ping ∧ p = .poll))
      (ht : t = { s with pump := p })
  | returns (ht : t = { s with pump := .returning })
  | defers (room : Room (Option ι) ClientOp.Res ClientQueues) (hs : s.pump = .returning)
      (h : s.room.enter none .write closeLocked = some room)
      (ht : t = { s with room := room, pump := .returned })

theorem outletStep_effect {s t : Outlet ι} {e : OutletEvent ι} (h : outletStep s e = some t) :
    OutletEffect s t := by
  cases e with
  | call i c =>
    obtain ⟨room, hroom, ht⟩ := Option.map_eq_some_iff.mp h
    exact .enters (some i) c room hroom ht.symm
  | turn i =>
    obtain ⟨room, hroom, ht⟩ := Option.map_eq_some_iff.mp h
    exact .turns i room hroom ht.symm
  | poll =>
    simp only [outletStep] at h
    split at h
    · rename_i hpump
      rw [← Option.some.inj h, Outlet.poll]
      -- `highPri` has a message, is closed, or is empty for now
      split
      · rename_i u hu
        obtain ⟨message, rest, htake, ht⟩ := receive_some hu
        exact .receives .highPri message rest (Or.inl ⟨hpump, rfl⟩) htake ht
      · rename_i hnone
        split
        · exact .returns rfl
        · exact .waits hpump (Option.map_eq_none_iff.mp hnone) rfl
    · cases h
  | select r =>
    simp only [outletStep] at h
    split at h
    · rename_i hpump
      cases r with
      | ticker => exact .pings .ping (Or.inl ⟨hpump, rfl⟩) (Option.some.inj h).symm
      | queue q =>
        simp only [Outlet.select] at h
        split at h
        · rename_i u hu
          obtain ⟨message, rest, htake, ht⟩ := receive_some hu
          exact .receives q message rest (Or.inr hpump) htake ((Option.some.inj h).symm.trans ht)
        · split at h
          · exact .returns (Option.some.inj h).symm
          · cases h
    · cases h
  | wrote ok =>
    simp only [outletStep, Outlet.wrote] at h
    split at h
    · rename_i q index message hpump
      split at h
      · exact .writes q index message hpump (Option.some.inj h).symm
      · exact .returns (Option.some.inj h).symm
    · rename_i hpump
      cases ok with
      | true => exact .pings .poll (Or.inr ⟨hpump, rfl⟩) (Option.some.inj h).symm
      | false => exact .returns (Option.some.inj h).symm
    · cases h
  | deferClose =>
    simp only [outletStep] at h
    split at h
    · rename_i hpump
      obtain ⟨room, hroom, ht⟩ := Option.map_eq_some_iff.mp h
      exact .defers room hpump hroom ht.symm
    · cases h

/-- What that means for the room of the goroutines. -/
inductive RoomStep (s t : Outlet ι) : Prop
  | enters (i : Option ι) (c : ClientCall) (h : s.room.enter i c.mode c.body = some t.room)
      (hreturned : t.closeReturned = s.closeReturned)
  | turns (i : Option ι) (h : s.room.turn ClientOp.run i = some t.room)
      (hreturned : t.closeReturned = (s.closeReturned || s.room.Leaves .write i))
  | receives (q : QueueKind) (message : Frame) (rest : Chan Frame)
      (htake : (s.room.shared.chan q).take = some (message, rest))
      (ht : t = s.received q message rest)
  | stays (hroom : t.room = s.room) (hreturned : t.closeReturned = s.closeReturned)

theorem OutletEffect.room {s t : Outlet ι} (h : OutletEffect s t) : RoomStep s t := by
  cases h with
  | enters i c room h ht =>
    rw [ht]
    exact .enters i c h rfl
  | turns i room h ht =>
    rw [ht]
    exact .turns i h rfl
  | receives q message rest _ htake ht => exact .receives q message rest htake ht
  | waits _ _ ht =>
    rw [ht]
    exact .stays rfl rfl
  | writes q index message _ ht =>
    rw [ht]
    exact .stays rfl rfl
  | pings p _ ht =>
    rw [ht]
    exact .stays rfl rfl
  | returns ht =>
    rw [ht]
    exact .stays rfl rfl
  | defers room _ h ht =>
    rw [ht]
    exact .enters none .close h rfl

/-- What a method does to a channel at once. -/
inductive ChanStep (cap : ℕ) (c d : Chan Frame) : Prop
  | same (hd : d = c)
  | accepts (data : Frame) (hroom : c.buffer.length < cap)
      (hd : d = { c with buffer := c.buffer ++ [data], accepted := c.accepted ++ [data] })
  | evicts (data : Frame) (rest : List Frame) (hbuf : c.buffer = data :: rest)
      (hd : d = { c with buffer := rest, evicted := c.evicted ++ [data] })

theorem ClientOp.run_chan (op : ClientOp) (s : ClientQueues) (q : QueueKind) :
    ChanStep q.size (s.chan q) ((op.run s).2.chan q) := by
  cases op with
  | readClosed => exact .same rfl
  | setClosed => exact .same rfl
  | close q' => exact .same rfl
  | on q' op =>
    have hother {c : Chan Frame} (hq : q ≠ q') : Function.update s.chan q' c q = s.chan q :=
      Function.update_of_ne hq ..
    by_cases hq : q = q'
    · subst hq
      cases op with
      | trySend data =>
        simp only [ClientOp.run]
        split
        · exact .same rfl
        · simp only [Function.update_self, Op.run]
          split
          · rename_i hroom
            exact .accepts data hroom rfl
          · exact .same rfl
      | evict =>
        simp only [ClientOp.run, Function.update_self, Op.run]
        split
        · exact .same rfl
        · rename_i data rest hbuf
          exact .evicts data rest hbuf rfl
    · -- the other queue is not looked at
      cases op with
      | trySend data =>
        simp only [ClientOp.run]
        split
        · exact .same rfl
        · exact .same (hother hq)
      | evict => exact .same (hother hq)

theorem turn_chan {i : Option ι} {r u : Room (Option ι) ClientOp.Res ClientQueues}
    (h : r.turn ClientOp.run i = some u) (q : QueueKind) :
    ChanStep q.size (r.shared.chan q) (u.shared.chan q) := by
  rcases Room.turn_eq h with ⟨_, _, op, k, _, _, hu⟩ | ⟨_, locks, _, hu⟩
  · rw [hu]
    exact op.run_chan r.shared q
  · rw [hu]
    exact .same rfl

end Step

end TwoWayRadio

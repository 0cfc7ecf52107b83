import TwoWayRadio.BoundedChannel
import TwoWayRadio.Hub

/-! The outgoing queues of a client; `send` is shared by signalling and audio. -/
namespace TwoWayRadio
open BoundedChannel Interleaving Transition

def sendBufferSize : ℕ := 64

def highPriSize : ℕ := 64

def Frame.isJSON : Frame → Bool
  | .json .. => true
  | .binary _ => false

/-- The methods that put a frame into `send`; JSON is marshalled before. -/
inductive SendCall
  | sendJSON (msg : Signal) (timestamp : ℤ)
  | sendRawJSON (msg : Signal) (timestamp : ℤ)
  | sendBinary (data : Bytes)

def SendCall.frame : SendCall → Frame
  | sendJSON msg timestamp | sendRawJSON msg timestamp => .json msg timestamp
  | sendBinary data => .binary data

/-- `enqueue` holds the read lock, which keeps the client open or closed but not other senders
out. -/
def enqueue (isClosed : Bool) (data : Frame) : Prog (Op.Res (α := Frame)) Unit :=
  if isClosed then pure () else dropOldest data

def enqueuePriority (isClosed : Bool) (data : Frame) : Prog (Op.Res (α := Frame)) Unit :=
  if isClosed then pure () else dropOldest data

def QueueKind.size : QueueKind → ℕ
  | highPri => highPriSize
  | send => sendBufferSize

def QueueKind.enqueue : QueueKind → Bool → Frame → Prog (Op.Res (α := Frame)) Unit
  | highPri => enqueuePriority
  | send => TwoWayRadio.enqueue

/-- A goroutine calls a method or makes its next attempt, or `WritePump` writes the oldest frame. -/
inductive QueueEvent
  | call (goroutine : ℕ) (c : SendCall)
  | advance (goroutine : ℕ)
  | write

def sendStep (isClosed : Bool) (s : Senders ℕ Frame) : QueueEvent → Option (Senders ℕ Frame)
  | .call g c => s.start g (enqueue isClosed c.frame)
  | .advance g => s.advance (fun _ => Op.run sendBufferSize) g
  | .write => receive s

/-- Every signalling message that was enqueued has been written or is still queued, and only
audio has been evicted. -/
def KeepsSignals (s : Senders ℕ Frame) : Prop := Keeps (fun f : Frame => f.isJSON = true) s

/-- An eviction finds an audio packet at the head of the queue, or nothing. -/
def EvictsAudio (s : Senders ℕ Frame) (e : QueueEvent) : Prop :=
  ∀ g k f rest, e = .advance g → s.task g = .call .evict k → s.shared.buffer = f :: rest →
    f.isJSON = false

/-- An open client's queue is a bounded channel that drops its oldest element. -/
def QueueEvent.abs : QueueEvent → Event ℕ Frame
  | call g c => .put g c.frame
  | advance g => .advance g
  | write => .receive

theorem sendStep_open (s : Senders ℕ Frame) (e : QueueEvent) :
    sendStep false s e = next sendBufferSize s e.abs := by
  cases e <;> rfl

theorem evictsAudio_iff {s : Senders ℕ Frame} {e : QueueEvent} :
    EvictsAudio s e ↔ Spares (fun f : Frame => f.isJSON = true) s e.abs := by
  constructor
  · intro h g k f rest he hk hbuf
    rw [Bool.not_eq_true]
    refine h g k f rest ?_ hk hbuf
    cases e with
    | call g' c => cases he
    | advance g' => exact congrArg QueueEvent.advance (Event.advance.inj he)
    | write => cases he
  · rintro h g k f rest rfl hk hbuf
    exact (Bool.not_eq_true _).mp (h g k f rest rfl hk hbuf)

/-- For any senders and any reads, an open client loses no signalling message if and only if no
eviction finds one at the head of the queue. -/
theorem overflow_drops_audio_iff (es : List QueueEvent) :
    Always (sendStep false) KeepsSignals init es ↔
      Guarded (sendStep false) EvictsAudio init es := by
  have hguard : Guarded (sendStep false) EvictsAudio init es ↔
      Guarded (sendStep false)
        (fun s e => Spares (fun f : Frame => f.isJSON = true) s e.abs) init es :=
    guarded_iff es (I := fun _ => True) (fun _ _ _ _ _ _ => trivial)
      (fun _ _ _ => evictsAudio_iff) trivial
  rw [hguard, guarded_map sendStep_open, always_map sendStep_open]
  exact keeps_always_iff sendBufferSize _ (es.map QueueEvent.abs)

/-- Frames that find room. -/
def fills (calls : List SendCall) : List QueueEvent :=
  calls.flatMap fun c => [.call 0 c, .advance 0]

/-- A `user_stopped`, then 63 audio packets of the next speaker, and one more. -/
def overflowing : List QueueEvent :=
  fills (.sendRawJSON (.userStopped ⟨1, "unit1", "PATROL-01"⟩) 0 ::
      List.replicate 63 (.sendBinary [])) ++
    [.call 0 (.sendBinary []), .advance 0, .advance 0, .advance 0]

/-- The `user_stopped` is evicted. -/
theorem overflow_drops_audio_fails : ¬ Always (sendStep false) KeepsSignals init overflowing := by
  intro h
  have hlast := always_iff.mp h overflowing [] _ (List.append_nil _).symm
    (run_get (sendStep false) init overflowing (by decide +kernel))
  refine hlast.2 (.json (.userStopped ⟨1, "unit1", "PATROL-01"⟩) 0) ?_ rfl
  decide +kernel

end TwoWayRadio

import TwoWayRadio.HubExec
import TwoWayRadio.RWMutex

/-! The mutexes that the operations of the server acquire and release, in the order of the source,
and that no goroutines come to wait for each other over them. -/
namespace TwoWayRadio
open Transition RWMutex Interleaving

/-- `mu` of the hub, of a channel, of a client, of the recorder and of the RoIP server. -/
inductive MutexRef
  | hub
  | channel (ch : ChannelID)
  | client (x : ClientRef)
  | recorder
  | roip
deriving DecidableEq

abbrev LockAction := RWMutex.Action MutexRef

/-- What is done of mutexes, in each way that it can go. -/
abbrev LockTraces := Language LockAction

/-- The body of a loop, any number of times. -/
abbrev loop (body : LockTraces) : LockTraces := KStar.kstar body

/-- `enqueue` and `enqueuePriority`. -/
def enqueueLocks (x : ClientRef) : LockTraces := critical .read (.client x) 1

/-- The loops over a channel's or the hub's clients; which they visit is left open. -/
def sendRawLocks : LockTraces := loop (⨆ x, enqueueLocks x)

/-- `BroadcastSignal` and `BroadcastAudio`. -/
def broadcastLocks (ch : ChannelID) : LockTraces := critical .read (.channel ch) sendRawLocks

/-- `GetState`, `SubscriberCount`, `GetUserCallsigns`, `GetSubscribersInfo` and `IsFloorHolder`. -/
def readChannelLocks (ch : ChannelID) : LockTraces := critical .read (.channel ch) 1

/-- The recorder's methods return at once if it is not enabled, or not called if there is none. -/
def recorderLocks (mode : Mode) : LockTraces := 1 + critical mode .recorder 1

/-- The mutexes of each call of the hub's handlers. -/
def HubOp.locks : HubOp → LockTraces
  | register .. | unregister _ | createChannel _ | appendChat .. | appendVoice .. | deleteVideo _
  | startVideo .. | endVideo _ => critical .write .hub 1
  | currentChannel _ | lookupSwitch .. | lookupChannel _ | history _ | activeVideo _
  | clientByID _ | getRelay => critical .read .hub 1
  | getChannelList => critical .read .hub
    (loop (⨆ ch, readChannelLocks ch * readChannelLocks ch * readChannelLocks ch))
  | broadcastAll _ => critical .read .hub sendRawLocks
  | allCallAudio .. => critical .read .hub (loop (⨆ ch, broadcastLocks ch))
  | addSubscriber ch _ | removeSubscriber ch _ | requestFloor ch _ | releaseFloor ch _
  | handleTOT ch _ => critical .write (.channel ch) 1
  | isFloorHolder ch _ | getState ch | getUserCallsigns ch | getSubscribersInfo ch =>
    readChannelLocks ch
  | broadcastSignal ch _ | broadcastAudio ch .. => broadcastLocks ch
  | onTransmissionStart .. | appendAudio .. | onTransmissionEnd _ => recorderLocks .write
  | sendJSON x _ | sendPriorityJSON x _ => enqueueLocks x
  | relay .. => critical .read .roip 1
  | fields _ | setCallsign .. | setRole .. | setLocation .. | setCurrentChannel ..
  | addTransmission | addPreemption | addAudioBytes _ | clock => 1

/-- The mutexes of a handler, whatever its calls return. -/
def Hub.locks {α : Type} : HubProg α → LockTraces
  | .ret _ => 1
  | .call op k => op.locks * ⨆ r, Hub.locks (k r)

/-- What goroutines of the server run: handlers of connections, the goroutines of timers, the loop
of the RoIP server, and the answers to HTTP requests. -/
inductive Operation
  | registerClient (client : ClientRef) (first : ℕ)
  | unregisterClient (client : ClientRef)
  | handleSignal (client : ClientRef) (msg : ClientSignal) (choices : Choices)
  | handleBinaryAudio (client : ClientRef) (data : Bytes)
  | handleRoIPAudio (channelID : ChannelID) (data : Bytes)
  | handleTOT (ch : ChannelID) (timer : ℕ)
  | getChannelList
  | getStatus
  | getMetrics
  | getRecordings (channelID : ChannelID)
  | close (client : ClientRef)
  | setRoIPRelay
  | listenLoop (datagram : Bytes)

def Operation.locks : Operation → LockTraces
  | registerClient client first => Hub.locks (Hub.registerClient client first)
  | unregisterClient client => Hub.locks (Hub.unregisterClient client)
  | handleSignal client msg choices => Hub.locks (Hub.handleSignal client msg choices)
  | handleBinaryAudio client data => Hub.locks (Hub.handleBinaryAudio client data)
  | handleRoIPAudio channelID data => Hub.locks (Hub.handleRoIPAudio channelID data)
  | handleTOT ch timer => Hub.locks (Hub.totGoroutine ch timer)
  | getChannelList => HubOp.getChannelList.locks
  | getStatus => critical .read .hub (loop (⨆ ch, readChannelLocks ch * readChannelLocks ch))
  | getMetrics => critical .read .hub 1
  | getRecordings _ => recorderLocks .read
  | close x => critical .write (.client x) 1
  | setRoIPRelay => critical .write .hub 1
  | listenLoop datagram =>
    -- datagrams shorter than a header are dropped, the peer of the others is remembered
    if datagram.length < audioHeaderSize then 1
    else critical .write .roip 1 * Hub.locks (Hub.roipDatagram datagram)

section Traces

/-- One client after the other is sent something. -/
def enqueueTrace (clients : List ClientRef) : List LockAction :=
  clients.flatMap fun x => locked .read (.client x) []

/-- The channels that `GetChannelList` visits. -/
def Hub.listedChannels (h : Hub) : List ChannelID :=
  ((List.range h.channels.entries.length).map fun n => ((n : ℤ) + 1 : ChannelID)).filter
    fun ch => (h.channels.lookup ch).isSome

/-- The mutexes of a call when nothing comes in between. -/
def HubOp.lockTrace : HubOp → Hub → List LockAction
  | register .., _ | unregister _, _ | createChannel _, _ | appendChat .., _ | appendVoice .., _
  | deleteVideo _, _ | startVideo .., _ | endVideo _, _ => locked .write .hub []
  | currentChannel _, _ | lookupSwitch .., _ | lookupChannel _, _ | history _, _
  | activeVideo _, _ | clientByID _, _ | getRelay, _ => locked .read .hub []
  | getChannelList, h => locked .read .hub <| h.listedChannels.flatMap fun ch =>
    locked .read (.channel ch) [] ++ locked .read (.channel ch) [] ++ locked .read (.channel ch) []
  | broadcastAll _, h => locked .read .hub (enqueueTrace h.clients.keys)
  | allCallAudio sender _, h => locked .read .hub <| h.channels.entries.flatMap fun e =>
    locked .read (.channel e.1) (enqueueTrace (e.2.subscribers.keys.filter (· ≠ sender)))
  | addSubscriber ch _, _ | removeSubscriber ch _, _ | requestFloor ch _, _
  | releaseFloor ch _, _ | handleTOT ch _, _ => locked .write (.channel ch) []
  | isFloorHolder ch _, _ | getState ch, _ | getUserCallsigns ch, _ | getSubscribersInfo ch, _ =>
    locked .read (.channel ch) []
  | broadcastSignal ch _, h => locked .read (.channel ch) (enqueueTrace (h.subscribersOf ch))
  | broadcastAudio ch sender _, h =>
    locked .read (.channel ch) (enqueueTrace ((h.subscribersOf ch).filter (some · ≠ sender)))
  | onTransmissionStart .., h | appendAudio .., h | onTransmissionEnd _, h =>
    if h.recorder.any fun r => r.enabled then locked .write .recorder [] else []
  | sendJSON x _, _ | sendPriorityJSON x _, _ => locked .read (.client x) []
  | relay .., _ => locked .read .roip []
  | fields _, _ | setCallsign .., _ | setRole .., _ | setLocation .., _ | setCurrentChannel .., _
  | addTransmission, _ | addPreemption, _ | addAudioBytes _, _ | clock, _ => []

theorem locked_nil_mem {mode : Mode} {l : MutexRef} : locked mode l [] ∈ critical mode l 1 :=
  locked_mem_critical rfl

theorem enqueueTrace_mem (clients : List ClientRef) : enqueueTrace clients ∈ sendRawLocks :=
  flatMap_mem_kstar (fun x => Language.mem_iSup.mpr ⟨x, locked_nil_mem⟩) clients

theorem HubOp.lockTrace_mem (op : HubOp) (h : Hub) : op.lockTrace h ∈ op.locks := by
  have hrecorder : (if h.recorder.any fun r => r.enabled then locked .write MutexRef.recorder []
      else []) ∈ recorderLocks .write := by
    split
    · exact Or.inr locked_nil_mem
    · exact Or.inl rfl
  cases op with
  | getChannelList =>
    refine locked_mem_critical (flatMap_mem_kstar (fun ch => ?_) _)
    refine Language.mem_iSup.mpr ⟨ch, ?_⟩
    exact Language.append_mem_mul (Language.append_mem_mul locked_nil_mem locked_nil_mem)
      locked_nil_mem
  | broadcastAll msg => exact locked_mem_critical (enqueueTrace_mem _)
  | allCallAudio sender data =>
    refine locked_mem_critical (flatMap_mem_kstar (fun e => ?_) _)
    exact Language.mem_iSup.mpr ⟨e.1, locked_mem_critical (enqueueTrace_mem _)⟩
  | broadcastSignal ch msg => exact locked_mem_critical (enqueueTrace_mem _)
  | broadcastAudio ch sender data => exact locked_mem_critical (enqueueTrace_mem _)
  | onTransmissionStart ch x => exact hrecorder
  | appendAudio ch payload => exact hrecorder
  | onTransmissionEnd ch => exact hrecorder
  | fields x => rfl
  | setCallsign x callsign => rfl
  | setRole x role => rfl
  | setLocation x location => rfl
  | setCurrentChannel x ch => rfl
  | addTransmission => rfl
  | addPreemption => rfl
  | addAudioBytes n => rfl
  | clock => rfl
  | _ => exact locked_nil_mem

/-- What an uninterrupted handler does of mutexes is one of its ways. -/
theorem Hub.lockTrace_mem {α : Type} (p : HubProg α) (h : Hub) :
    p.trace HubOp.run HubOp.lockTrace h ∈ Hub.locks p := by
  induction p generalizing h with
  | ret a => rfl
  | call op k ih =>
    refine Language.append_mem_mul (op.lockTrace_mem h) ?_
    exact Language.mem_iSup.mpr ⟨(op.run h).1, ih _ _⟩

end Traces

/-- The hub's mutex is acquired before those of channels, and these before those of clients. While
the others are held, none is acquired. -/
def MutexRef.rank : MutexRef → ℕ
  | hub => 0
  | channel _ => 1
  | client _ | recorder | roip => 2

section Order

theorem above_enqueue {r : WithBot ℕ} (hr : r < 2) (x : ClientRef) :
    Above MutexRef.rank r (enqueueLocks x) :=
  above_critical hr above_one

theorem above_sendRaw {r : WithBot ℕ} (hr : r < 2) : Above MutexRef.rank r sendRawLocks :=
  above_kstar (above_iSup fun x => above_enqueue hr x)

theorem above_broadcast {r : WithBot ℕ} (hr : r < 1) (ch : ChannelID) :
    Above MutexRef.rank r (broadcastLocks ch) :=
  above_critical hr (above_sendRaw (WithBot.coe_lt_coe.mpr Nat.one_lt_two))

theorem above_readChannel {r : WithBot ℕ} (hr : r < 1) (ch : ChannelID) :
    Above MutexRef.rank r (readChannelLocks ch) :=
  above_critical hr above_one

/-- No call of a handler acquires a mutex against the order. -/
theorem HubOp.above_locks (op : HubOp) : Above MutexRef.rank ⊥ op.locks := by
  have hleaf {mode : Mode} {l : MutexRef} : Above MutexRef.rank ⊥ (critical mode l 1) :=
    above_critical (WithBot.bot_lt_coe _) above_one
  have hrecorder : Above MutexRef.rank ⊥ (recorderLocks .write) := above_add above_one hleaf
  have hbot : (⊥ : WithBot ℕ) < 1 := WithBot.bot_lt_coe 1
  have hhub : ((MutexRef.hub.rank : ℕ) : WithBot ℕ) < 1 := WithBot.coe_lt_coe.mpr Nat.zero_lt_one
  cases op with
  | getChannelList =>
    refine above_critical (WithBot.bot_lt_coe _) (above_kstar (above_iSup fun ch => ?_))
    have hread := above_readChannel hhub ch
    exact above_mul (above_mul hread hread) hread
  | broadcastAll msg =>
    refine above_critical (WithBot.bot_lt_coe _) (above_sendRaw ?_)
    exact WithBot.coe_lt_coe.mpr Nat.two_pos
  | allCallAudio sender data =>
    refine above_critical (WithBot.bot_lt_coe _) (above_kstar (above_iSup fun ch => ?_))
    exact above_broadcast hhub ch
  | broadcastSignal ch msg => exact above_broadcast hbot ch
  | broadcastAudio ch sender data => exact above_broadcast hbot ch
  | onTransmissionStart ch x => exact hrecorder
  | appendAudio ch payload => exact hrecorder
  | onTransmissionEnd ch => exact hrecorder
  | fields x => exact above_one
  | setCallsign x callsign => exact above_one
  | setRole x role => exact above_one
  | setLocation x location => exact above_one
  | setCurrentChannel x ch => exact above_one
  | addTransmission => exact above_one
  | addPreemption => exact above_one
  | addAudioBytes n => exact above_one
  | clock => exact above_one
  | _ => exact hleaf

theorem Hub.above_locks {α : Type} (p : HubProg α) : Above MutexRef.rank ⊥ (Hub.locks p) := by
  induction p with
  | ret a => exact above_one
  | call op k ih => exact above_mul op.above_locks (above_iSup ih)

theorem Operation.above_locks (op : Operation) : Above MutexRef.rank ⊥ op.locks := by
  have hleaf {mode : Mode} {l : MutexRef} : Above MutexRef.rank ⊥ (critical mode l 1) :=
    above_critical (WithBot.bot_lt_coe _) above_one
  cases op with
  | getChannelList => exact HubOp.above_locks .getChannelList
  | getStatus =>
    refine above_critical (WithBot.bot_lt_coe _) (above_kstar (above_iSup fun ch => ?_))
    have hread := above_readChannel (WithBot.coe_lt_coe.mpr Nat.zero_lt_one) ch
    exact above_mul hread hread
  | getMetrics => exact hleaf
  | getRecordings channelID => exact above_add above_one hleaf
  | close x => exact hleaf
  | setRoIPRelay => exact hleaf
  | listenLoop datagram =>
    show Above MutexRef.rank ⊥ (if datagram.length < audioHeaderSize then 1 else _)
    split
    · exact above_one
    · exact above_mul hleaf (Hub.above_locks _)
  | _ => exact Hub.above_locks _

end Order

/-- A goroutine runs one operation after the other. -/
def goroutineLocks : LockTraces := loop (⨆ op : Operation, op.locks)

theorem mem_goroutineLocks (op : Operation) {w : List LockAction} (hw : w ∈ op.locks) :
    w ∈ goroutineLocks := by
  refine Language.mem_kstar.mpr ⟨[w], List.flatten_singleton.symm, fun v hv => ?_⟩
  rw [List.mem_singleton.mp hv]
  exact Language.mem_iSup.mpr ⟨op, hw⟩

/-- The goroutines of the server, with all that each will do of mutexes. -/
def startGoroutines {ι : Type*} (trace : ι → {w // w ∈ goroutineLocks}) :
    ι → RWMutex.Thread MutexRef :=
  fun i => RWMutex.Thread.start (trace i).1

section Run

variable {ι : Type*} [Fintype ι] [DecidableEq ι] {trace : ι → {w // w ∈ goroutineLocks}}
  {es : List ι} {s : ι → RWMutex.Thread MutexRef}

theorem goroutines_orderly (hrun : Run RWMutex.step (startGoroutines trace) es s) :
    ∀ i, (s i).Orderly MutexRef.rank := by
  have hstart : ∀ i, (startGoroutines trace i).Orderly MutexRef.rank := fun i =>
    orderly_start (above_kstar (above_iSup Operation.above_locks)) (trace i).2
  exact hrun.invariant (fun _ _ _ h hstep => orderly_step h hstep) hstart

/-- No set of goroutines comes to wait for each other over mutexes, and none acquires a mutex that
it holds. -/
theorem locks_ordered (hrun : Run RWMutex.step (startGoroutines trace) es s) :
    (∀ S, ¬ Deadlocked s S) ∧ ∀ i mode l rest, (s i).rest = .acquire mode l :: rest →
      ∀ mode', (mode', l) ∉ (s i).held := by
  have horderly := goroutines_orderly hrun
  exact ⟨not_deadlocked horderly, fun i _ _ _ hrest => (horderly i).not_held hrest⟩

/-- While a goroutine has something to do, some goroutine can go on. -/
theorem server_goes_on (hrun : Run RWMutex.step (startGoroutines trace) es s) {i : ι}
    (hi : (s i).rest ≠ []) : ∃ j, (RWMutex.step s j).isSome = true := by
  refine exists_step (goroutines_orderly hrun) ?_ hi
  exact hrun.invariant (fun _ _ _ h hstep => attended_step h hstep) fun _ _ hparked => by
    cases hparked

end Run

/-- A hub with one client. -/
def oneClient : Hub :=
  Hub.after (Hub.registerClient 0 0) (newHub defaultConfig none false sampleClients 0)

/-- An announcement to all, and the end of the client's connection. -/
def announceAndClose (i : Fin 2) : {w // w ∈ goroutineLocks} :=
  if i = 0 then
    ⟨_, mem_goroutineLocks (.handleSignal 0 (.allCall { value := { text := "TEST" } }) {})
      (Hub.lockTrace_mem _ oneClient)⟩
  else ⟨_, mem_goroutineLocks (.close 0) locked_nil_mem⟩

/-- The end of the connection waits for the announcement, which waits for nobody. -/
theorem locks_ordered_announceAndClose : ∃ s,
    Run RWMutex.step (startGoroutines announceAndClose) [0, 0, 1] s ∧
    ((s 1).status = .announced (.client 0) ∧ (s 0).Reads (.client 0) ∧ (s 0).Reads .hub) ∧
    (∀ S, ¬ Deadlocked s S) ∧ ∀ i mode l rest, (s i).rest = .acquire mode l :: rest →
      ∀ mode', (mode', l) ∉ (s i).held := by
  have hrun := run_get RWMutex.step (startGoroutines announceAndClose) [0, 0, 1]
    (by decide +kernel)
  exact ⟨_, hrun, by decide +kernel, locks_ordered hrun⟩

end TwoWayRadio

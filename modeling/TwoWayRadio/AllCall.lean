import TwoWayRadio.AudioFanOut
import TwoWayRadio.HubRequests

/-! All-Call: how far the two fleet-wide paths carry what a client of the lowest rank sends. -/
namespace TwoWayRadio
open Interleaving Transition

/-- An `all_call` signal, or an audio packet with the All-Call flag. -/
def Request.callsAll : Request → Bool
  | signal _ (.allCall _) _ => true
  | audio _ data =>
    match parseAudioHeaderQuick data with
    | .error _ => false
    | .ok packet => packet.flags &&& flagAudioAllCall ≠ 0
  | _ => false

/-- The two calls are made in full, and in the name of `x`. -/
def HubOp.callsFor (x : ClientRef) : HubOp → Bool
  | broadcastSignal .. | sendJSON .. | sendPriorityJSON .. | broadcastAudio .. => false
  | allCallAudio y _ => y = x
  | _ => true

/-- What the step enqueues for an All-Call of a client of the lowest rank goes to clients tuned to
that client's channel. -/
def AllCallConfined (s : Server (Thread → Option Request)) (e : ServerEvent) : Prop :=
  ∀ t x r y queue frame, e = .advance (.client x) → serverStep servedObserver s e = some t →
    s.history (.client x) = some r → r.callsAll = true →
    getPriority (some (s.hub.heap x)) = 1 →
    Delivery.enqueue y queue frame ∈ t.hub.outbox.drop s.hub.outbox.length →
    (s.hub.heap y).currentChannelID = (s.hub.heap x).currentChannelID

/-- When the All-Call of a client of the lowest rank goes out, nobody whom it goes out to is tuned
to another channel: no registered client for a signal, no other subscriber for a packet. -/
def NobodyElsewhere (s : Server (Thread → Option Request)) (e : ServerEvent) : Prop :=
  ∀ x r, e = .advance (.client x) → s.history (.client x) = some r → r.callsAll = true →
    getPriority (some (s.hub.heap x)) = 1 →
    (∀ msg k, s.pool.task (.client x) = .call (.broadcastAll msg) k → ∀ y ∈ s.hub.clients,
      (s.hub.heap y).currentChannelID = (s.hub.heap x).currentChannelID) ∧
    ∀ data k, s.pool.task (.client x) = .call (.allCallAudio x data) k → ∀ c y, y ≠ x →
      s.hub.Subscribed c y → (s.hub.heap y).currentChannelID = (s.hub.heap x).currentChannelID

section Calls

open Prog

theorem callsFor_allCallSignal (x : ClientRef) (p : Decoded AllCallPayload) :
    (Hub.allCallSignal x p).All fun op => op.callsFor x = true :=
  all_when <| all_then rfl fun _ => all_then rfl fun _ => all_perform rfl

theorem callsFor_handleBinaryAudio (x : ClientRef) {data : Bytes} {packet : AudioPacket}
    (hparse : parseAudioHeaderQuick data = .ok packet)
    (hflag : packet.flags &&& flagAudioAllCall ≠ 0) :
    (Hub.handleBinaryAudio x data).All fun op => op.callsFor x = true := by
  unfold Hub.handleBinaryAudio
  rw [hparse]
  refine all_then rfl fun _ => all_when <| all_then rfl fun _ => all_when <| all_then rfl fun _ =>
    all_when <| all_then rfl fun _ => all_bind (all_when (all_perform rfl)) fun _ =>
    all_bind ?_ fun _ => all_then rfl fun _ => all_when (all_perform rfl)
  unfold Hub.fanOut
  rw [if_pos hflag]
  exact all_perform (decide_eq_true rfl)

/-- The handler of an All-Call reaches clients by the two fleet-wide calls alone. -/
theorem callsFor_prog (r : Request) : r.prog.All fun op =>
    r.callsAll = true → ∀ x, r.thread = .client x → op.callsFor x = true := by
  by_cases hr : r.callsAll = true
  swap
  · exact all_of_forall (fun _ hcalls => absurd hcalls hr) _
  cases r with
  | signal x msg choices =>
    cases msg with
    | allCall p =>
      refine (callsFor_allCallSignal x p).mono fun op hop _ y hy => ?_
      rwa [← Thread.client.inj hy]
    | _ => cases hr
  | audio x data =>
    cases hparse : parseAudioHeaderQuick data with
    | error err => simp [Request.callsAll, hparse] at hr
    | ok packet =>
      have hflag : packet.flags &&& flagAudioAllCall ≠ 0 := by
        simpa [Request.callsAll, hparse] using hr
      refine (callsFor_handleBinaryAudio x hparse hflag).mono fun op hop _ y hy => ?_
      rwa [← Thread.client.inj hy]
  | _ => cases hr

end Calls

section Confined

variable {s : Server (Thread → Option Request)} {e : ServerEvent}

/-- The calls of an All-Call's handler, as the run shows them. -/
abbrev CallsAll (s : Server (Thread → Option Request)) : Prop :=
  ServedWith (fun r op => r.callsAll = true → ∀ x, r.thread = .client x → op.callsFor x = true) s

/-- A confined All-Call finds nobody elsewhere when it goes out. -/
theorem AllCallConfined.nobodyElsewhere (hconf : AllCallConfined s e) : NobodyElsewhere s e := by
  intro x r he hr hall hrank
  subst he
  constructor
  · intro msg k hk y hy
    obtain ⟨t, hstep⟩ := serverStep_enabled (o := servedObserver) hk
    refine hconf t x r y .send (.json msg s.hub.unixMilli) rfl hstep hr hall hrank ?_
    rw [outbox_step hk hstep]
    exact List.mem_map.mpr ⟨y, AList.mem_keys.mp hy, rfl⟩
  · intro data k hk c y hne hy
    obtain ⟨t, hstep⟩ := serverStep_enabled (o := servedObserver) hk
    refine hconf t x r y .send (.binary data) rfl hstep hr hall hrank ?_
    rw [outbox_step hk hstep]
    exact List.mem_map.mpr ⟨y, Hub.mem_allCall.mpr ⟨hne, c, hy⟩, rfl⟩

theorem allCallConfined_iff (hs : CallsAll s) : AllCallConfined s e ↔ NobodyElsewhere s e := by
  refine ⟨AllCallConfined.nobodyElsewhere, ?_⟩
  rintro hnobody t x r y queue frame rfl h hr hall hrank hd
  obtain ⟨hsignal, haudio⟩ := hnobody x r rfl hr hall hrank
  obtain ⟨op, k, hk, _⟩ := serverStep_advance h
  obtain ⟨r', hr', hthread, hcalls⟩ := hs.request hk
  obtain rfl : r = r' := Option.some.inj (hr.symm.trans hr')
  -- an All-Call makes two calls that deliver something: the signal and the packet
  have hop := hcalls hall x hthread
  rw [outbox_step hk h] at hd
  cases op with
  | broadcastAll msg =>
    obtain ⟨z, hz, heq⟩ := List.mem_map.mp hd
    obtain rfl := (Delivery.enqueue.inj heq).1
    exact hsignal msg k hk z (AList.mem_keys.mpr hz)
  | allCallAudio sender data =>
    obtain rfl : sender = x := of_decide_eq_true hop
    obtain ⟨z, hz, heq⟩ := List.mem_map.mp hd
    obtain rfl := (Delivery.enqueue.inj heq).1
    obtain ⟨hne, c, hsub⟩ := Hub.mem_allCall.mp hz
    exact haudio data k hk c z hne hsub
  | broadcastSignal ch msg => cases hop
  | sendJSON z msg => cases hop
  | sendPriorityJSON z msg => cases hop
  | broadcastAudio ch sender data => cases hop
  | relay ch data => cases List.mem_singleton.mp hd
  | _ => cases hd

end Confined

def radioUnits : Clients := fun n =>
  if n = 0 then newClient "unit1" "PATROL-01" else newClient "unit2" "PATROL-02"

/-- Unit 0 names itself a field unit, unit 1 goes to channel 2, and the handler of the last
request of unit 0 makes its first calls. -/
def callFrom (keyUp : List ServerEvent) (r : Request) (calls : ℕ) : List ServerEvent :=
  uninterrupted (.connect 0 0) 10 ++ uninterrupted (.connect 1 0) 10 ++
    uninterrupted
      (.signal 0 (.identify ⟨{ callsign := "PATROL-01", role := "Field Unit" }, true⟩) {}) 6 ++
    uninterrupted (.signal 1 (.joinChannel ⟨{ channelID := 2 }, true⟩) {}) 17 ++ keyUp ++
    uninterrupted r calls

end TwoWayRadio

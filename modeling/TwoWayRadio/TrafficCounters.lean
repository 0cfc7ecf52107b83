import TwoWayRadio.FloorHistory
import TwoWayRadio.HubRequests
import Mathlib.Algebra.BigOperators.Group.Finset.Basic

/-! The counters of the hub against the traffic: what the handlers have counted, and what they
have still to count. -/
namespace TwoWayRadio

open Interleaving Transition

/-- Something that happened on a channel and is to be counted once. -/
inductive Debit
  | transmission
  | preemption
  | audio (bytes : ℕ)
deriving DecidableEq

namespace HubOp

/-- What a call counts. -/
def pays : HubOp → List Debit
  | addTransmission => [.transmission]
  | addPreemption => [.preemption]
  | addAudioBytes n => [.audio n]
  | _ => []

/-- What the answer to a call obliges its handler to count. `n` is the length of the packet that
the handler serves. -/
def charges (n : ℕ) : (op : HubOp) → op.Res → List Debit
  | requestFloor .., reply =>
    if reply.granted then .transmission :: reply.preempted.toList.map fun _ => .preemption else []
  | isFloorHolder .., holds => if holds then [.audio n] else []
  | _, _ => []

/-- What happens at a call, in terms of the floors alone: a press after which its sender holds
the floor is a transmission, one that takes the floor from somebody else is also a preemption,
and a packet is audio if its sender holds the floor. -/
def traffic (n : ℕ) (op : HubOp) (h : Hub) : List Debit :=
  match op with
  | requestFloor ch x =>
    if (op.run h).2.holder ch = some x then
      .transmission :: if h.holder ch = none ∨ h.holder ch = some x then [] else [.preemption]
    else []
  | isFloorHolder ch x => if h.holder ch = some x then [.audio n] else []
  | _ => []

theorem charges_run {h : Hub} (hb : h.BusyAgrees) (n : ℕ) (op : HubOp) :
    op.charges n (op.run h).1 = op.traffic n h := by
  cases op with
  | requestFloor ch x =>
    have hreq := requestFloor_run ch x hb
    dsimp only [charges, traffic]
    generalize h.holder ch = before at hreq ⊢
    generalize ((requestFloor ch x).run h).1 = reply at hreq ⊢
    generalize ((requestFloor ch x).run h).2.holder ch = after at hreq ⊢
    cases hreq with
    | absent => simp
    | free => simp
    | held => simp
    | preempts y hne _ => simp [hne]
    | denied y hne _ => simp [hne]
  | isFloorHolder ch x =>
    exact if_congr (isFloorHolder_iff hb) rfl rfl
  | _ => rfl

end HubOp

/-- What a handler has to count it counts at once. -/
def ledger (n : ℕ) : Prog.Protocol HubOp.Res (List Debit) where
  ok owed op := op.pays = owed.take 1
  next owed op r := owed.drop 1 ++ op.charges n r
  can _ _ := True

/-- The handler of a request counts all that it comes to owe. -/
abbrev Pays (n : ℕ) (owed : List Debit) {α : Type} (p : HubProg α) : Prop :=
  p.Follows (ledger n) (fun _ owed => owed = []) owed

section Handlers

variable {n : ℕ} {x : ClientRef}

/-- A call that the counters have nothing to do with. -/
def HubOp.uncounted (op : HubOp) : Prop := op.pays = [] ∧ ∀ n r, op.charges n r = []

theorem pays_of_uncounted {α : Type} {p : HubProg α} (hp : p.All HubOp.uncounted) :
    Pays n [] p :=
  Prog.follows_of_all (fun _ hop => ⟨hop.1, fun r => hop.2 n r⟩) hp

def Request.presses : Request → Bool
  | .signal _ .pttDown _ => true
  | _ => false

theorem HubOp.uncounted_of_servedBy {op : HubOp} {r : Request} (hop : op.servedBy r = true)
    (haudio : r.sendsAudio = false) (hpress : r.presses = false) : op.uncounted := by
  cases op with
  | requestFloor ch y => exact absurd (hop.symm.trans hpress) Bool.noConfusion
  | addTransmission => exact absurd (hop.symm.trans hpress) Bool.noConfusion
  | addPreemption => exact absurd (hop.symm.trans hpress) Bool.noConfusion
  | isFloorHolder ch y => exact absurd (hop.symm.trans haudio) Bool.noConfusion
  | addAudioBytes m => exact absurd (hop.symm.trans haudio) Bool.noConfusion
  | _ => exact ⟨rfl, fun _ _ => rfl⟩

/-- A preemption is counted before anything else is done about it. -/
theorem pays_finalizePreempted {ch : ChannelID} {y : ClientRef} :
    Pays n [.preemption] (Hub.finalizePreempted ch x y) := by
  refine Prog.follows_then rfl fun _ _ => pays_of_uncounted ?_
  refine Prog.all_bind (Prog.all_then ⟨rfl, fun _ _ => rfl⟩ fun _ => ?_) fun _ => ?_
  · exact Prog.all_bind (Prog.all_ifSome fun _ => Prog.all_perform ⟨rfl, fun _ _ => rfl⟩)
      fun _ => trivial
  · exact Prog.all_then ⟨rfl, fun _ _ => rfl⟩ fun _ => Prog.all_perform ⟨rfl, fun _ _ => rfl⟩

theorem pays_answerRequest {ch : ChannelID} {reply : FloorReply} :
    Pays n ((HubOp.requestFloor ch x).charges n reply) (Hub.answerRequest x ch reply) := by
  have hcharges : (HubOp.requestFloor ch x).charges n reply =
      if reply.granted then .transmission :: reply.preempted.toList.map fun _ => .preemption
      else [] := rfl
  rw [hcharges]
  unfold Hub.answerRequest
  by_cases hgranted : reply.granted = true
  · rw [if_pos hgranted, if_pos hgranted]
    refine Prog.follows_then rfl fun _ _ => ?_
    refine Prog.follows_bind (Q := fun _ owed => owed = []) ?_ fun _ owed howed => ?_
    · cases reply.preempted with
      | none => rfl
      | some y => exact pays_finalizePreempted
    · rw [howed]
      exact pays_of_uncounted <| Prog.all_then ⟨rfl, fun _ _ => rfl⟩ fun _ =>
        Prog.all_then ⟨rfl, fun _ _ => rfl⟩ fun _ => Prog.all_then ⟨rfl, fun _ _ => rfl⟩ fun _ =>
          Prog.all_then ⟨rfl, fun _ _ => rfl⟩ fun _ => Prog.all_perform ⟨rfl, fun _ _ => rfl⟩
  · rw [if_neg hgranted, if_neg hgranted]
    exact pays_of_uncounted (Prog.all_perform ⟨rfl, fun _ _ => rfl⟩)

theorem pays_handlePTTDown : Pays n [] (Hub.handlePTTDown x) := by
  refine Prog.follows_then rfl fun ch _ => ?_
  cases ch with
  | none => exact pays_of_uncounted (Prog.all_perform ⟨rfl, fun _ _ => rfl⟩)
  | some ch => exact Prog.follows_then rfl fun reply _ => pays_answerRequest

theorem pays_dispatchAudio {ch : ChannelID} {flags : UInt8} {data : Bytes} :
    Pays data.length [.audio data.length] (Hub.dispatchAudio x ch flags data) := by
  refine Prog.follows_then rfl fun _ _ => pays_of_uncounted ?_
  refine Prog.all_bind (Prog.all_when (Prog.all_perform ⟨rfl, fun _ _ => rfl⟩)) fun _ => ?_
  refine Prog.all_bind ?_ fun _ => Prog.all_then ⟨rfl, fun _ _ => rfl⟩ fun _ =>
    Prog.all_when (Prog.all_perform ⟨rfl, fun _ _ => rfl⟩)
  unfold Hub.fanOut
  split_ifs
  · exact Prog.all_perform ⟨rfl, fun _ _ => rfl⟩
  · exact Prog.all_perform ⟨rfl, fun _ _ => rfl⟩

theorem pays_handleBinaryAudio (data : Bytes) :
    Pays data.length [] (Hub.handleBinaryAudio x data) := by
  have skipped {p : HubProg Unit} {c : Prop} [Decidable c]
      (hp : Pays data.length [] p) : Pays data.length [] (Prog.when c p) := by
    unfold Prog.when
    split_ifs
    · exact hp
    · rfl
  unfold Hub.handleBinaryAudio
  split
  · rfl
  · refine Prog.follows_then rfl fun found _ => skipped ?_
    refine Prog.follows_then rfl fun c _ => skipped ?_
    refine Prog.follows_then rfl fun holder _ => ?_
    cases holder with
    | false => rfl
    | true => exact pays_dispatchAudio

/-- The length of the packet that a request brings. -/
def Request.packetSize : Request → ℕ
  | .audio _ data => data.length
  | _ => 0

theorem pays_prog (r : Request) : Pays r.packetSize [] r.prog := by
  have plain (haudio : r.sendsAudio = false) (hpress : r.presses = false) :
      Pays r.packetSize [] r.prog :=
    pays_of_uncounted <| (serves_prog r).mono fun _ hop =>
      HubOp.uncounted_of_servedBy hop haudio hpress
  cases r with
  | audio x data => exact pays_handleBinaryAudio data
  | datagram data =>
    refine pays_of_uncounted ?_
    show (Hub.roipDatagram data).All HubOp.uncounted
    unfold Hub.roipDatagram
    dsimp only
    split
    · trivial
    · exact Prog.all_then ⟨rfl, fun _ _ => rfl⟩ fun _ =>
        Prog.all_when (Prog.all_perform ⟨rfl, fun _ _ => rfl⟩)
  | signal x msg choices =>
    cases msg with
    | pttDown => exact pays_handlePTTDown
    | _ => exact plain rfl rfl
  | _ => exact plain rfl rfl

end Handlers

/-- All that has happened, oldest first, and what each handler has still to count. -/
structure Traffic where
  packet : Thread → ℕ := fun _ => 0
  owed : Thread → List Debit := fun _ => []
  served : Finset Thread := ∅
  happened : List Debit := []

def trafficObserver : Observer Traffic where
  starts r f := { f with
    packet := Function.update f.packet r.thread r.packetSize
    served := insert r.thread f.served }
  sees i op r h f := { f with
    owed := Function.update f.owed i ((f.owed i).drop 1 ++ op.charges (f.packet i) r)
    happened := f.happened ++ op.traffic (f.packet i) h }

section Conservation

def weigh (w : Debit → ℕ) (debits : List Debit) : ℕ := (debits.map w).sum

theorem weigh_append (w : Debit → ℕ) (a b : List Debit) :
    weigh w (a ++ b) = weigh w a + weigh w b := by
  rw [weigh, List.map_append, List.sum_append, weigh, weigh]

def Debit.isTransmission : Debit → ℕ
  | transmission => 1
  | _ => 0

def Debit.isPreemption : Debit → ℕ
  | preemption => 1
  | _ => 0

def Debit.audioBytes : Debit → ℕ
  | audio n => n
  | _ => 0

/-- What the handlers have still to count. -/
def Traffic.outstanding (w : Debit → ℕ) (f : Traffic) : ℕ :=
  ∑ i ∈ f.served, weigh w (f.owed i)

/-- The counter `total` adds up what the debits weigh. -/
structure Counts (total : Hub → UInt64) (w : Debit → ℕ) : Prop where
  run : ∀ (op : HubOp) h, total (op.run h).2 = total h + UInt64.ofNat (weigh w op.pays)
  channels : ∀ (h : Hub) channels, total { h with channels := channels } = total h
  tick : ∀ (h : Hub) now, total { h with now := now } = total h
  fresh : ∀ cfg recorder roipRelay heap now, total (newHub cfg recorder roipRelay heap now) = 0

variable {total : Hub → UInt64} {w : Debit → ℕ}

def Hub.counters (h : Hub) : UInt64 × UInt64 × UInt64 :=
  (h.totalTransmissions, h.totalPreemptions, h.totalAudioBytes)

/-- A call other than the counter updates leaves the counters as they are. -/
theorem counters_of_unpaid {op : HubOp} (hop : op.pays = []) (h : Hub) :
    (op.run h).2.counters = h.counters := by
  have hchannel : ∀ {α : Type} (ch : ChannelID) (absent : α) (f : Channel → α × Channel),
      (h.onChannel ch absent f).2.counters = h.counters :=
    fun ch absent f => Hub.onChannel_part (g := Hub.counters) (fun _ _ => rfl) ..
  have hrecorder : ∀ {α : Type} (absent : α) (f : AudioRecorder → α × AudioRecorder),
      (h.onRecorder absent f).2.counters = h.counters :=
    fun absent f => Hub.onRecorder_part (g := Hub.counters) (fun _ _ => rfl) ..
  cases op with
  | addTransmission => cases hop
  | addPreemption => cases hop
  | addAudioBytes n => cases hop
  | register x first =>
    show (h.register x first).2.counters = h.counters
    rw [Hub.register_eq]
    rfl
  | endVideo x =>
    simp only [HubOp.run]
    split_ifs <;> rfl
  | addSubscriber ch x => exact hchannel ..
  | removeSubscriber ch x => exact hchannel ..
  | requestFloor ch x => exact hchannel ..
  | releaseFloor ch x => exact hchannel ..
  | handleTOT ch timer => exact hchannel ..
  | onTransmissionStart ch x => exact hrecorder ..
  | appendAudio ch payload => exact hrecorder ..
  | onTransmissionEnd ch => exact hrecorder ..
  | _ => rfl

theorem counters_run (op : HubOp) (h : Hub) : (op.run h).2.counters =
    h.counters + (UInt64.ofNat (weigh Debit.isTransmission op.pays),
      UInt64.ofNat (weigh Debit.isPreemption op.pays),
      UInt64.ofNat (weigh Debit.audioBytes op.pays)) := by
  by_cases hop : op.pays = []
  · rw [counters_of_unpaid hop, hop]
    simp [weigh, Hub.counters]
  · -- each counter update moves its own counter
    cases op with
    | addTransmission =>
      simp [HubOp.run, HubOp.pays, weigh, Hub.counters, Debit.isTransmission, Debit.isPreemption,
        Debit.audioBytes]
    | addPreemption =>
      simp [HubOp.run, HubOp.pays, weigh, Hub.counters, Debit.isTransmission, Debit.isPreemption,
        Debit.audioBytes]
    | addAudioBytes n =>
      simp [HubOp.run, HubOp.pays, weigh, Hub.counters, Debit.isTransmission, Debit.isPreemption,
        Debit.audioBytes]
    | _ => exact absurd rfl hop

theorem counts_transmissions : Counts Hub.totalTransmissions Debit.isTransmission where
  run op h := congrArg Prod.fst (counters_run op h)
  channels _ _ := rfl
  tick _ _ := rfl
  fresh _ _ _ _ _ := rfl

theorem counts_preemptions : Counts Hub.totalPreemptions Debit.isPreemption where
  run op h := congrArg (fun c => c.2.1) (counters_run op h)
  channels _ _ := rfl
  tick _ _ := rfl
  fresh _ _ _ _ _ := rfl

theorem counts_audioBytes : Counts Hub.totalAudioBytes Debit.audioBytes where
  run op h := congrArg (fun c => c.2.2) (counters_run op h)
  channels _ _ := rfl
  tick _ _ := rfl
  fresh _ _ _ _ _ := rfl

end Conservation

/-- The handlers count what they owe, and what they have counted and still owe is what has
happened. -/
structure Metered (s : Server Traffic) : Prop where
  busyAgrees : s.hub.BusyAgrees
  pays : ∀ i, Pays (s.history.packet i) (s.history.owed i) (s.pool.task i)
  served : ∀ i, i ∉ s.history.served → s.pool.Idle i
  balances : ∀ total w, Counts total w → total s.hub +
    UInt64.ofNat (s.history.outstanding w) = UInt64.ofNat (weigh w s.history.happened)

namespace Metered

variable {s t : Server Traffic}

theorem owed_of_idle {i : Thread} (hs : Metered s) (hi : s.pool.Idle i) :
    s.history.owed i = [] := by
  have h := hs.pays i
  rw [hi] at h
  exact h

theorem serve {r : Request} (hs : Metered s)
    (h : serverStep trafficObserver s (.serve r) = some t) : Metered t := by
  obtain ⟨-, hidle, -, hshared, htask, hothers⟩ := serverStep_serve h
  obtain ⟨hhub, hhist⟩ := serverStep_starts h
  have hnone : s.history.owed r.thread = [] := hs.owed_of_idle hidle
  refine ⟨hhub ▸ hs.busyAgrees, fun i => ?_, fun i hi => ?_, fun total w hw => ?_⟩
  · rw [hhist]
    dsimp only [trafficObserver]
    by_cases hi : i = r.thread
    · subst hi
      rw [Function.update_self, htask, hnone]
      exact pays_prog r
    · rw [Function.update_of_ne hi, hothers i hi]
      exact hs.pays i
  · rw [hhist] at hi
    obtain ⟨hne, hi⟩ := not_or.mp fun hor => hi (Finset.mem_insert.mpr hor)
    rw [Pool.Idle, hothers i hne]
    exact hs.served i hi
  · have hsame : t.history.outstanding w = s.history.outstanding w := by
      rw [hhist]
      refine Finset.sum_insert_of_eq_zero_if_notMem fun _ => ?_
      exact congrArg (weigh w) hnone
    rw [hsame, hhub, hhist]
    exact hs.balances total w hw

/-- A call moves its own handler's debits to the counters, or what happens at it to its
handler's debits. -/
theorem advance {i : Thread} (hs : Metered s)
    (h : serverStep trafficObserver s (.advance i) = some t) : Metered t := by
  obtain ⟨op, k, hk, -, hhub, hhist, htask, hothers⟩ := serverStep_advance h
  have hfollows := hs.pays i
  rw [hk] at hfollows
  obtain ⟨hok, hnext⟩ := hfollows
  have hserved : i ∈ s.history.served := by
    by_contra hi
    exact Pool.not_idle_of_call hk (hs.served i hi)
  have howed : t.history.owed = Function.update s.history.owed i ((s.history.owed i).drop 1 ++
      op.charges (s.history.packet i) (op.run s.hub).1) := by rw [hhist]; rfl
  refine ⟨?_, fun j => ?_, fun j hj => ?_, fun total w hw => ?_⟩
  · rw [hhub]
    exact HubOp.busyAgrees_run hs.busyAgrees op
  · have hpacket : t.history.packet = s.history.packet := by rw [hhist]; rfl
    rw [hpacket, howed]
    by_cases hj : j = i
    · subst hj
      rw [Function.update_self, htask]
      exact hnext _ trivial
    · rw [Function.update_of_ne hj, hothers j hj]
      exact hs.pays j
  · have hj' : j ∉ s.history.served := by rwa [hhist] at hj
    have hne : j ≠ i := by
      rintro rfl
      exact hj' hserved
    rw [Pool.Idle, hothers j hne]
    exact hs.served j hj'
  · have hbefore : s.history.outstanding w = weigh w op.pays + weigh w ((s.history.owed i).drop 1) +
        ∑ j ∈ s.history.served.erase i, weigh w (s.history.owed j) := by
      rw [Traffic.outstanding, ← Finset.add_sum_erase _ _ hserved, ← weigh_append, hok,
        List.take_append_drop]
    have hafter : t.history.outstanding w = weigh w ((s.history.owed i).drop 1) +
        weigh w (op.traffic (s.history.packet i) s.hub) +
        ∑ j ∈ s.history.served.erase i, weigh w (s.history.owed j) := by
      have hsame : t.history.served = s.history.served := by rw [hhist]; rfl
      rw [Traffic.outstanding, hsame, howed, ← Finset.add_sum_erase _ _ hserved,
        Function.update_self, weigh_append, HubOp.charges_run hs.busyAgrees]
      congr 1
      refine Finset.sum_congr rfl fun j hj => ?_
      rw [Function.update_of_ne (Finset.ne_of_mem_erase hj)]
    have hhappened : weigh w t.history.happened = weigh w s.history.happened +
        weigh w (op.traffic (s.history.packet i) s.hub) := by
      rw [hhist]
      exact weigh_append ..
    have hold := hs.balances total w hw
    rw [hbefore] at hold
    rw [hhub, hw.run, hafter, hhappened]
    simp only [UInt64.ofNat_add] at hold ⊢
    rw [← hold]
    ac_rfl

theorem step {e : ServerEvent} (hs : Metered s)
    (h : serverStep trafficObserver s e = some t) : Metered t := by
  cases e with
  | serve r => exact hs.serve h
  | advance i => exact hs.advance h
  | timerFires ch timer =>
    obtain ⟨hfire, -, hhist, htask⟩ := serverStep_timerFires h
    refine ⟨Hub.fireTimer_busyAgrees hs.busyAgrees hfire, ?_, ?_, fun total w hw => ?_⟩
    · rw [hhist, htask]
      exact hs.pays
    · rw [hhist]
      intro i hi
      rw [Pool.Idle, htask]
      exact hs.served i hi
    · obtain ⟨c, c', -, -, heq⟩ := Hub.fireTimer_eq hfire
      rw [heq, hw.channels, hhist]
      exact hs.balances total w hw
  | tick d =>
    obtain ⟨hhub, -, hhist, htask⟩ := serverStep_tick h
    refine ⟨?_, ?_, ?_, fun total w hw => ?_⟩
    · rw [hhub]
      exact hs.busyAgrees
    · rw [hhist, htask]
      exact hs.pays
    · rw [hhist]
      intro i hi
      rw [Pool.Idle, htask]
      exact hs.served i hi
    · rw [hhub, hw.tick, hhist]
      exact hs.balances total w hw

end Metered

/-- A server that starts with nothing counted. -/
def meteredServer (cfg : Config) (recorder : Option AudioRecorder) (roipRelay : Bool)
    (heap : Clients) (now : ℤ) : Server Traffic :=
  Server.init (newHub cfg recorder roipRelay heap now) {}

theorem metered_init (cfg : Config) (recorder : Option AudioRecorder) (roipRelay : Bool)
    (heap : Clients) (now : ℤ) : Metered (meteredServer cfg recorder roipRelay heap now) where
  busyAgrees := newHub_busyAgrees cfg recorder roipRelay heap now
  pays _ := rfl
  served _ _ := rfl
  balances total w hw := by
    show total (newHub cfg recorder roipRelay heap now) + 0 = 0
    rw [hw.fresh]
    rfl

/-- The counters are exact in every interleaving: what happened on the floors and what the
counters say differ by what handlers under way have still to count, and a handler that is done
has nothing left to count. -/
theorem counters_exact (cfg : Config) (recorder : Option AudioRecorder) (roipRelay : Bool)
    (heap : Clients) (now : ℤ) (es : List ServerEvent) (s : Server Traffic)
    (hrun : Run (serverStep trafficObserver) (meteredServer cfg recorder roipRelay heap now)
      es s) :
    s.hub.totalTransmissions + UInt64.ofNat (s.history.outstanding Debit.isTransmission) =
        UInt64.ofNat (s.history.happened.count .transmission) ∧
      s.hub.totalPreemptions + UInt64.ofNat (s.history.outstanding Debit.isPreemption) =
        UInt64.ofNat (s.history.happened.count .preemption) ∧
      s.hub.totalAudioBytes + UInt64.ofNat (s.history.outstanding Debit.audioBytes) =
        UInt64.ofNat (s.history.happened.map Debit.audioBytes).sum ∧
      ∀ i, s.pool.Idle i → s.history.owed i = [] := by
  have hs : Metered s := hrun.invariant (fun _ _ _ hs h => hs.step h)
    (metered_init cfg recorder roipRelay heap now)
  have count (d : Debit) (w : Debit → ℕ) (hw : ∀ e, w e = if e = d then 1 else 0)
      (l : List Debit) : weigh w l = l.count d := by
    induction l with
    | nil => rfl
    | cons e l ih =>
      rw [weigh, List.map_cons, List.sum_cons, ← weigh, ih, hw, List.count_cons, add_comm]
      simp
  refine ⟨?_, ?_, hs.balances _ _ counts_audioBytes, fun i hi => hs.owed_of_idle hi⟩
  · rw [← count .transmission Debit.isTransmission (by rintro (_ | _ | _) <;> rfl)]
    exact hs.balances _ _ counts_transmissions
  · rw [← count .preemption Debit.isPreemption (by rintro (_ | _ | _) <;> rfl)]
    exact hs.balances _ _ counts_preemptions

/-- A unit talks, a dispatcher presses, and its handler has counted the transmission but not
yet the preemption. -/
def preemptingPress : List ServerEvent :=
  uninterrupted (.connect 0 0) 10 ++ uninterrupted (.connect 1 0) 10 ++
    uninterrupted (.signal 0 .pttDown {}) 8 ++
    uninterrupted (.audio 0 (encodeAudioPacket 1 0 1 [1, 2])) 7 ++
    uninterrupted (.signal 1 .pttDown {}) 3

theorem counters_exact_preempting :
    ∃ s, Run (serverStep trafficObserver) (meteredServer defaultConfig none false sampleClients 0)
        preemptingPress s ∧
      s.history.happened = [.transmission, .audio 10, .transmission, .preemption] ∧
      s.hub.totalPreemptions = 0 ∧ s.hub.totalPreemptions +
        UInt64.ofNat (s.history.outstanding Debit.isPreemption) = UInt64.ofNat 1 := by
  have hrun := run_get (serverStep trafficObserver)
    (meteredServer defaultConfig none false sampleClients 0) preemptingPress (by decide +kernel)
  have hexact := counters_exact defaultConfig none false sampleClients 0 preemptingPress _ hrun
  exact ⟨_, hrun, by decide +kernel, by decide +kernel, hexact.2.1⟩

end TwoWayRadio

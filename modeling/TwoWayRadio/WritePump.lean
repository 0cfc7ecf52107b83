import TwoWayRadio.ClientQueues

/-! What `WritePump` writes: each queue in its order, and `highPri` before `send` but for one
message. -/
namespace TwoWayRadio
open BoundedChannel CriticalSections Transition

variable {ι : Type}

/-- `WritePump` does not come back to the queues. -/
def Pump.Over (p : Pump) : Prop := p = .returning ∨ p = .returned

/-- `WritePump` has received this message and has yet to write it. -/
def Pump.Carries (q : QueueKind) (n : ℕ) (p : Pump) : Prop := ∃ message, p = .write q n message

/-- The message of the queue that was enqueued after `n` others has been written. -/
def Outlet.Wrote (q : QueueKind) (n : ℕ) (s : Outlet ι) : Prop :=
  ∃ w ∈ s.written, w.queue = q ∧ w.index = n

/-- It has left the queue, and `WritePump` has not received it. -/
def Outlet.Evicted (q : QueueKind) (n : ℕ) (s : Outlet ι) : Prop :=
  n < (s.room.shared.chan q).gone ∧ (q, n) ∉ s.taken

def Outlet.writes (q : QueueKind) (s : Outlet ι) : ℕ := s.written.countP fun w => w.queue = q

/-- The messages of a queue are written in the order in which they were enqueued. -/
def Outlet.InOrder (s : Outlet ι) : Prop :=
  (s.written.Pairwise fun v w => v.queue = w.queue → v.index < w.index) ∧
    ∀ w ∈ s.written, (s.room.shared.chan w.queue).accepted[w.index]? = some w.message

/-- How many messages of `send` can be written before the next poll of `highPri`. -/
def Pump.credit : Pump → ℕ
  | .wait => 1
  | .write .send _ _ => 1
  | _ => 0

/-- A channel some time after. -/
structure Later (c d : Chan Frame) : Prop where
  accepted : c.accepted <+: d.accepted
  gone : c.gone ≤ d.gone

theorem Later.refl (c : Chan Frame) : Later c c := ⟨List.prefix_rfl, le_rfl⟩

theorem Later.getElem {c d : Chan Frame} (h : Later c d) {n : ℕ} {message : Frame}
    (hn : c.accepted[n]? = some message) : d.accepted[n]? = some message := by
  obtain ⟨more, hmore⟩ := h.accepted
  obtain ⟨hlt, _⟩ := List.getElem?_eq_some_iff.mp hn
  rw [← hmore, List.getElem?_append_left hlt]
  exact hn

theorem ChanStep.later {cap : ℕ} {c d : Chan Frame} (h : ChanStep cap c d) : Later c d := by
  cases h with
  | same hd =>
    rw [hd]
    exact Later.refl c
  | accepts data _ hd =>
    rw [hd]
    exact ⟨List.prefix_append _ _, le_rfl⟩
  | evicts data rest _ hd =>
    rw [hd]
    refine ⟨List.prefix_rfl, ?_⟩
    simp only [Chan.gone, List.length_append]
    omega

theorem ChanStep.windowed {cap : ℕ} {c d : Chan Frame} (h : ChanStep cap c d)
    (hc : Windowed cap c) : Windowed cap d := by
  cases h with
  | same hd => rwa [hd]
  | accepts data hroom hd =>
    rw [hd]
    exact hc.accepts hroom data
  | evicts data rest hbuf hd =>
    rw [hd]
    refine hc.leaves hbuf rfl rfl ?_
    simp only [Chan.gone, List.length_append, List.length_singleton]
    omega

theorem gone_take {c d : Chan Frame} {message : Frame} (h : c.take = some (message, d)) :
    d.gone = c.gone + 1 := by
  rw [(Chan.take_eq h).2]
  simp only [Chan.gone, List.length_append, List.length_singleton]
  omega

theorem later_take {c d : Chan Frame} {message : Frame} (h : c.take = some (message, d)) :
    Later c d := by
  constructor
  · rw [(Chan.take_eq h).2]
  · rw [gone_take h]
    omega

theorem windowed_take {cap : ℕ} {c d : Chan Frame} {message : Frame}
    (h : c.take = some (message, d)) (hc : Windowed cap c) : Windowed cap d :=
  hc.leaves (Chan.take_eq h).1 rfl (by rw [(Chan.take_eq h).2]) (gone_take h)

/-- The pump receives the oldest message. -/
theorem oldest_take {cap : ℕ} {c d : Chan Frame} {message : Frame}
    (h : c.take = some (message, d)) (hc : Windowed cap c) :
    c.accepted[c.gone]? = some message := by
  have hhead : (c.accepted.drop c.gone)[0]? = some message := by
    rw [← hc.buffer_eq, (Chan.take_eq h).1]
    rfl
  rw [List.getElem?_drop] at hhead
  exact hhead

/-- What the pump has received it has written, unless it is at it or gone. -/
structure Pumping (s : Outlet ι) : Prop where
  windowed : ∀ q, Windowed q.size (s.room.shared.chan q)
  inOrder : s.InOrder
  written_lt : ∀ w ∈ s.written, w.index < (s.room.shared.chan w.queue).gone
  carried : ∀ q n message, s.pump = .write q n message →
    n < (s.room.shared.chan q).gone ∧ (s.room.shared.chan q).accepted[n]? = some message ∧
      ∀ w ∈ s.written, w.queue = q → w.index < n
  handled : ∀ q n, (q, n) ∈ s.taken → s.Wrote q n ∨ s.pump.Carries q n ∨ s.pump.Over

theorem pumping_init : Pumping ({} : Outlet ι) where
  windowed q := Windowed.empty q.size
  inOrder := ⟨List.Pairwise.nil, fun w hw => by cases hw⟩
  written_lt w hw := by cases hw
  carried q n message h := by cases h
  handled q n h := by cases h

variable {s t : Outlet ι}

/-- Steps at which the pump neither receives a message nor has written one. -/
theorem Pumping.move (hs : Pumping s)
    (hchan : ∀ q, Windowed q.size (t.room.shared.chan q) ∧
      Later (s.room.shared.chan q) (t.room.shared.chan q))
    (hwritten : t.written = s.written) (htaken : t.taken = s.taken)
    (hcarries : ∀ q n message, t.pump = .write q n message → s.pump = .write q n message)
    (hhandled : ∀ q n, s.pump.Carries q n ∨ s.pump.Over → t.pump.Carries q n ∨ t.pump.Over) :
    Pumping t := by
  refine ⟨fun q => (hchan q).1, ⟨?_, fun w hw => ?_⟩, fun w hw => ?_, fun q n message h => ?_,
    fun q n h => ?_⟩
  · rw [hwritten]
    exact hs.inOrder.1
  · rw [hwritten] at hw
    exact (hchan w.queue).2.getElem (hs.inOrder.2 w hw)
  · rw [hwritten] at hw
    exact (hs.written_lt w hw).trans_le (hchan w.queue).2.gone
  · obtain ⟨hlt, hmessage, hbefore⟩ := hs.carried q n message (hcarries q n message h)
    rw [hwritten]
    exact ⟨hlt.trans_le (hchan q).2.gone, (hchan q).2.getElem hmessage, hbefore⟩
  · rw [htaken] at h
    unfold Outlet.Wrote
    rw [hwritten]
    exact (hs.handled q n h).imp id (hhandled q n)

/-- The pump receives a message. -/
theorem Pumping.receives (hs : Pumping s) {q : QueueKind} {message : Frame} {rest : Chan Frame}
    (hready : ∀ q n, ¬ (s.pump.Carries q n ∨ s.pump.Over))
    (htake : (s.room.shared.chan q).take = some (message, rest)) :
    Pumping (s.received q message rest) := by
  have hself : (s.received q message rest).room.shared.chan q = rest := Function.update_self ..
  have hchan (q' : QueueKind) : Windowed q'.size ((s.received q message rest).room.shared.chan q') ∧
      Later (s.room.shared.chan q') ((s.received q message rest).room.shared.chan q') := by
    by_cases hq : q' = q
    · rw [hq, hself]
      exact ⟨windowed_take htake (hs.windowed q), later_take htake⟩
    · have hother : (s.received q message rest).room.shared.chan q' = s.room.shared.chan q' :=
        Function.update_of_ne hq ..
      rw [hother]
      exact ⟨hs.windowed q', Later.refl _⟩
  refine ⟨fun q' => (hchan q').1, ⟨hs.inOrder.1, fun w hw => ?_⟩, fun w hw => ?_,
    fun q' n message' h => ?_, fun q' n h => ?_⟩
  · exact (hchan w.queue).2.getElem (hs.inOrder.2 w hw)
  · exact (hs.written_lt w hw).trans_le (hchan w.queue).2.gone
  · cases h
    refine ⟨?_, (hchan q).2.getElem (oldest_take htake (hs.windowed q)), fun w hw hq => ?_⟩
    · rw [hself, gone_take htake]
      exact Nat.lt_succ_self _
    · rw [← hq]
      exact hs.written_lt w hw
  · rcases List.mem_append.mp h with hold | hnew
    · exact Or.inl ((hs.handled q' n hold).resolve_right (hready q' n))
    · cases List.mem_singleton.mp hnew
      exact Or.inr (Or.inl ⟨message, rfl⟩)

/-- The pump has written the message it had received. -/
theorem Pumping.writes (hs : Pumping s) {q : QueueKind} {n : ℕ} {message : Frame}
    (hpump : s.pump = .write q n message) :
    Pumping { s with pump := .poll, written := s.written ++ [⟨q, n, message⟩] } := by
  obtain ⟨hlt, hmessage, hbefore⟩ := hs.carried q n message hpump
  have hcases {w : Written} (hw : w ∈ s.written ++ [⟨q, n, message⟩]) :
      w ∈ s.written ∨ w = ⟨q, n, message⟩ :=
    (List.mem_append.mp hw).imp_right List.mem_singleton.mp
  refine ⟨hs.windowed, ⟨?_, fun w hw => ?_⟩, fun w hw => ?_, fun q' n' message' h => ?_,
    fun q' n' h => Or.inl ?_⟩
  · refine List.pairwise_append.mpr ⟨hs.inOrder.1, List.pairwise_singleton _ _, ?_⟩
    intro v hv w hw hqueue
    rw [List.mem_singleton.mp hw] at hqueue ⊢
    exact hbefore v hv hqueue
  · rcases hcases hw with hw | rfl
    · exact hs.inOrder.2 w hw
    · exact hmessage
  · rcases hcases hw with hw | rfl
    · exact hs.written_lt w hw
    · exact hlt
  · cases h
  · rcases hs.handled q' n' h with ⟨w, hw, heq⟩ | ⟨message', hcarries⟩ | hover
    · exact ⟨w, List.mem_append_left _ hw, heq⟩
    · rw [hpump] at hcarries
      cases hcarries
      exact ⟨⟨q, n, message⟩, List.mem_append_right _ List.mem_cons_self, rfl, rfl⟩
    · rcases hover with hover | hover <;> rw [hpump] at hover <;> cases hover

section Step

variable [Fintype ι] [DecidableEq ι] {e : OutletEvent ι}

theorem pumping_step (hs : Pumping s) (h : outletStep s e = some t) : Pumping t := by
  have hsame {u : Outlet ι} (hu : u.room.shared = s.room.shared) (q : QueueKind) :
      Windowed q.size (u.room.shared.chan q) ∧
        Later (s.room.shared.chan q) (u.room.shared.chan q) := by
    rw [hu]
    exact ⟨hs.windowed q, Later.refl _⟩
  cases outletStep_effect h with
  | enters i c room henter ht =>
    rw [ht]
    exact hs.move (hsame (Room.enter_shared henter)) rfl rfl (fun _ _ _ => id) fun _ _ => id
  | turns i room hturn ht =>
    rw [ht]
    have hchan (q : QueueKind) := turn_chan hturn q
    exact hs.move (fun q => ⟨(hchan q).windowed (hs.windowed q), (hchan q).later⟩) rfl rfl
      (fun _ _ _ => id) fun _ _ => id
  | receives q message rest hpump htake ht =>
    rw [ht]
    -- a pump that waits for a message carries none
    refine hs.receives (fun q' n => ?_) htake
    rcases hpump with ⟨hpump, _⟩ | hpump <;> rw [hpump] <;>
      rintro (⟨_, hcarries⟩ | hover | hover) <;> contradiction
  | waits hpump _ ht =>
    rw [ht]
    refine hs.move (hsame rfl) rfl rfl (fun _ _ _ h => by cases h) fun q n h => ?_
    rw [hpump] at h
    rcases h with ⟨_, hcarries⟩ | hover | hover <;> contradiction
  | writes q n message hpump ht =>
    rw [ht]
    exact hs.writes hpump
  | pings p hpump ht =>
    rw [ht]
    refine hs.move (hsame rfl) rfl rfl (fun q n message h => ?_) fun q n h => ?_
    · rcases hpump with ⟨_, hp⟩ | ⟨_, hp⟩ <;> rw [hp] at h <;> cases h
    · rcases hpump with ⟨hpump, _⟩ | ⟨hpump, _⟩ <;> rw [hpump] at h <;>
        rcases h with ⟨_, hcarries⟩ | hover | hover <;> contradiction
  | returns ht =>
    rw [ht]
    exact hs.move (hsame rfl) rfl rfl (fun _ _ _ h => by cases h) fun _ _ _ => Or.inr (Or.inl rfl)
  | defers room _ henter ht =>
    rw [ht]
    exact hs.move (hsame (Room.enter_shared henter)) rfl rfl (fun _ _ _ h => by cases h)
      fun _ _ _ => Or.inr (Or.inr rfl)

theorem later_step (h : outletStep s e = some t) (q : QueueKind) :
    Later (s.room.shared.chan q) (t.room.shared.chan q) := by
  cases (outletStep_effect h).room with
  | enters i c henter _ =>
    rw [Room.enter_shared henter]
    exact Later.refl _
  | turns i hturn _ => exact (turn_chan hturn q).later
  | receives q' message rest htake ht =>
    rw [ht]
    show Later _ (Function.update s.room.shared.chan q' rest q)
    by_cases hq : q = q'
    · rw [hq, Function.update_self]
      exact later_take htake
    · rw [Function.update_of_ne hq]
      exact Later.refl _
  | stays hroom _ =>
    rw [hroom]
    exact Later.refl _

theorem wrote_step (h : outletStep s e = some t) {q : QueueKind} {n : ℕ} (hs : s.Wrote q n) :
    t.Wrote q n := by
  obtain ⟨w, hw, heq⟩ := hs
  refine ⟨w, ?_, heq⟩
  cases outletStep_effect h with
  | writes q' n' message _ ht =>
    rw [ht]
    exact List.mem_append_left _ hw
  | enters i c room _ ht => rwa [ht]
  | turns i room _ ht => rwa [ht]
  | receives q' message rest _ _ ht => rwa [ht]
  | waits _ _ ht => rwa [ht]
  | pings p _ ht => rwa [ht]
  | returns ht => rwa [ht]
  | defers room _ _ ht => rwa [ht]

/-- What the pump receives afterwards are younger messages. -/
theorem evicted_step (h : outletStep s e = some t) {q : QueueKind} {n : ℕ} (hs : s.Evicted q n) :
    t.Evicted q n := by
  refine ⟨hs.1.trans_le (later_step h q).gone, fun hmem => hs.2 ?_⟩
  cases outletStep_effect h with
  | receives q' message rest _ _ ht =>
    rw [ht] at hmem
    rcases List.mem_append.mp hmem with hold | hnew
    · exact hold
    · cases List.mem_singleton.mp hnew
      exact absurd hs.1 (lt_irrefl _)
  | writes q' n' message _ ht => rwa [ht] at hmem
  | enters i c room _ ht => rwa [ht] at hmem
  | turns i room _ ht => rwa [ht] at hmem
  | waits _ _ ht => rwa [ht] at hmem
  | pings p _ ht => rwa [ht] at hmem
  | returns ht => rwa [ht] at hmem
  | defers room _ _ ht => rwa [ht] at hmem

/-- As long as the message with the number `k` is neither written nor evicted, no more than `most`
messages of `send` are written in all. -/
def Yields (k most : ℕ) (s : Outlet ι) : Prop :=
  s.Wrote .highPri k ∨ s.Evicted .highPri k ∨ s.writes .send + s.pump.credit ≤ most

/-- While a message waits in `highPri` no poll finds it empty. -/
theorem yields_step (hs : Pumping s) {k most : ℕ}
    (hk : k < (s.room.shared.chan .highPri).accepted.length) (hyields : Yields k most s)
    (h : outletStep s e = some t) : Yields k most t := by
  by_cases hwrote : s.Wrote .highPri k
  · exact Or.inl (wrote_step h hwrote)
  by_cases hevicted : s.Evicted .highPri k
  · exact Or.inr (Or.inl (evicted_step h hevicted))
  have hbound : s.writes .send + s.pump.credit ≤ most :=
    (hyields.resolve_left hwrote).resolve_left hevicted
  refine Or.inr (Or.inr ?_)
  have hless (p : Pump) (hp : p.credit ≤ s.pump.credit) : s.writes .send + p.credit ≤ most :=
    (Nat.add_le_add_left hp _).trans hbound
  cases outletStep_effect h with
  | enters i c room _ ht =>
    rw [ht]
    exact hbound
  | turns i room _ ht =>
    rw [ht]
    exact hbound
  | receives q message rest hpump _ ht =>
    rw [ht]
    refine hless (.write q _ message) ?_
    rcases hpump with ⟨hpump, hq⟩ | hpump
    · rw [hpump, hq]
      exact le_rfl
    · rw [hpump]
      cases q with
      | highPri => exact Nat.zero_le 1
      | send => exact le_rfl
  | waits hpump hempty _ =>
    -- the message has left `highPri`, and the pump, which is at its poll, has not received it
    exfalso
    have hlength := (hs.windowed .highPri).length_add
    have hbuf : (s.room.shared.chan .highPri).buffer = [] := by
      unfold Chan.take at hempty
      split at hempty
      · assumption
      · cases hempty
    rw [hbuf, List.length_nil] at hlength
    have htaken : (QueueKind.highPri, k) ∈ s.taken := by
      by_contra hnot
      exact hevicted ⟨by omega, hnot⟩
    rcases hs.handled .highPri k htaken with hw | ⟨_, hcarries⟩ | hover | hover
    · exact hwrote hw
    · rw [hpump] at hcarries
      cases hcarries
    · rw [hpump] at hover
      cases hover
    · rw [hpump] at hover
      cases hover
  | writes q n message hpump ht =>
    rw [ht]
    rw [hpump] at hbound
    unfold Outlet.writes at hbound ⊢
    rw [List.countP_append]
    cases q with
    | highPri => exact hbound
    | send => exact hbound
  | pings p hpump ht =>
    rw [ht]
    refine hless p ?_
    rcases hpump with ⟨_, hp⟩ | ⟨_, hp⟩ <;> rw [hp] <;> exact Nat.zero_le _
  | returns ht =>
    rw [ht]
    exact hless .returning (Nat.zero_le _)
  | defers room _ _ ht =>
    rw [ht]
    exact hless .returned (Nat.zero_le _)

/-- In any run of any number of goroutines and `WritePump`, each queue is written in the order in
which it was filled, and after a message was enqueued in `highPri` one message of `send` at most is
written before it is written itself or evicted. -/
theorem bounded_priority_inversion {es : List (OutletEvent ι)} (r : Run outletStep {} es s) :
    s.InOrder ∧ ∀ es' t, Run outletStep s es' t →
      ∀ k, k < (s.room.shared.chan .highPri).accepted.length →
        t.Wrote .highPri k ∨ t.Evicted .highPri k ∨ t.writes .send ≤ s.writes .send + 1 := by
  have hs : Pumping s := r.invariant (fun _ _ _ hs h => pumping_step hs h) pumping_init
  refine ⟨hs.inOrder, fun es' t r' k hk => ?_⟩
  have hcredit : s.pump.credit ≤ 1 := by
    unfold Pump.credit
    split <;> omega
  have hkept : Pumping t ∧ k < (t.room.shared.chan .highPri).accepted.length ∧
      Yields k (s.writes .send + 1) t := by
    refine r'.invariant (I := fun u => Pumping u ∧
      k < (u.room.shared.chan .highPri).accepted.length ∧ Yields k (s.writes .send + 1) u) ?_
      ⟨hs, hk, Or.inr (Or.inr (Nat.add_le_add_left hcredit _))⟩
    rintro u e v ⟨hu, hk, hyields⟩ h
    refine ⟨pumping_step hu h, ?_, yields_step hu hk hyields h⟩
    exact hk.trans_le (later_step h .highPri).accepted.length_le
  exact hkept.2.2.imp_right (Or.imp_right fun hle => (Nat.le_add_right _ _).trans hle)

/-- A pong is enqueued when `WritePump` has found `highPri` empty, and its `select` picks the
packet in `send`. -/
def lateArrival : List (OutletEvent Bool) :=
  .call false (.send (.sendBinary [1])) :: List.replicate 4 (.turn (some false)) ++
    [.poll, .call true (.sendPriorityJSON (.pong "0") 0)] ++ List.replicate 3 (.turn (some true))

theorem bounded_priority_inversion_lateArrival : ∃ s t : Outlet Bool,
    Run outletStep {} lateArrival s ∧ Run outletStep s [.select (.queue .send), .wrote true] t ∧
      (t.Wrote .highPri 0 ∨ t.Evicted .highPri 0 ∨ t.writes .send ≤ s.writes .send + 1) := by
  have r := run_get outletStep ({} : Outlet Bool) lateArrival (by decide +kernel)
  have r' := run_get outletStep ((lateArrival.foldlM outletStep ({} : Outlet Bool)).get
    (by decide +kernel)) [.select (.queue .send), .wrote true] (by decide +kernel)
  exact ⟨_, _, r, r', (bounded_priority_inversion r).2 _ _ r' 0 (by decide +kernel)⟩

end Step

end TwoWayRadio

import TwoWayRadio.ClientQueues

/-! Methods of a client that run into its `Close`. -/
namespace TwoWayRadio
open BoundedChannel CriticalSections Interleaving RWMutex Transition

/-- What everybody leaves alone while another goroutine is inside, but for what they put into the
queues of an open client and take from them. -/
structure Framed (s t : ClientQueues) : Prop where
  closed : t.closed = s.closed
  closes : t.closes = s.closes
  isClosed : t.isClosed = s.isClosed
  panicked : t.panicked = s.panicked
  accepted : s.isClosed = true → ∀ q, (t.chan q).accepted = (s.chan q).accepted

/-- What a `Close` does between the lock and the unlock. -/
structure Closing (s t : ClientQueues) : Prop where
  closes : ∀ q, s.closes q ≤ t.closes q ∧ t.closes q ≤ 1
  isClosed : s.isClosed = true → t.isClosed = true
  panicked : t.panicked = s.panicked
  accepted : ∀ q, (t.chan q).accepted = (s.chan q).accepted

/-- The channels in `done` are closed, each of them once, and no others. -/
def ClosedAt (done : QueueKind → Bool) (s : ClientQueues) : Prop :=
  ∀ q, s.closed q = done q ∧ s.closes q = (done q).toNat

/-- The flag tells whether the channels are closed. -/
def FlagAgrees (s : ClientQueues) : Prop := ClosedAt (fun _ => s.isClosed) s

theorem Framed.refl (s : ClientQueues) : Framed s s := ⟨rfl, rfl, rfl, rfl, fun _ _ => rfl⟩

theorem Framed.trans {s t u : ClientQueues} (h : Framed s t) (k : Framed t u) : Framed s u where
  closed := k.closed.trans h.closed
  closes := k.closes.trans h.closes
  isClosed := k.isClosed.trans h.isClosed
  panicked := k.panicked.trans h.panicked
  accepted hs q := (k.accepted (h.isClosed.trans hs) q).trans (h.accepted hs q)

theorem Framed.closedAt {s t : ClientQueues} {done : QueueKind → Bool} (h : Framed s t)
    (hs : ClosedAt done s) : ClosedAt done t := by
  intro q
  rw [h.closed, h.closes]
  exact hs q

theorem Framed.flagAgrees {s t : ClientQueues} (h : Framed s t) (hs : FlagAgrees s) :
    FlagAgrees t := by
  unfold FlagAgrees
  rw [h.isClosed]
  exact h.closedAt hs

/-- Channels are closed under the lock only, all of them, and with the flag. -/
def closePolicy : Policy ClientQueues where
  frame := Framed
  write := Closing
  inv := FlagAgrees
  exit mode s := FlagAgrees s ∧ (mode = .write → s.isClosed = true)
  refl := Framed.refl
  trans _ _ _ := Framed.trans
  inv_frame _ _ := Framed.flagAgrees
  exit_frame _ _ _ h hs := ⟨h.flagAgrees hs.1, fun hmode => h.isClosed.trans (hs.2 hmode)⟩
  exit_inv _ _ := And.left

/-- On an open client no channel is closed, so an operation on one does not panic. -/
theorem framed_on {s : ClientQueues} (hs : FlagAgrees s) (hopen : s.isClosed = false)
    (q : QueueKind) (op : Op Frame) : Framed s ((ClientOp.on q op).run s).2 := by
  have hclosed : s.closed q = false := by
    rw [(hs q).1]
    exact hopen
  cases op with
  | trySend data =>
    simp only [ClientOp.run, hclosed, Bool.false_eq_true, if_false]
    refine ⟨rfl, rfl, rfl, rfl, fun h => ?_⟩
    rw [hopen] at h
    cases h
  | evict =>
    refine ⟨rfl, rfl, rfl, rfl, fun h => ?_⟩
    rw [hopen] at h
    cases h

theorem enqueueLocked_allowed (q : QueueKind) (data : Frame) :
    Allowed ClientOp.run closePolicy .read (enqueueLocked q data) := by
  intro s hs t ht
  have hagrees : FlagAgrees t := Framed.flagAgrees ht hs
  refine ⟨Framed.refl t, ?_⟩
  show Inside ClientOp.run closePolicy .read
    ((q.enqueue t.isClosed data).lift (.on q) fun _ r => r) t
  cases hclosed : t.isClosed with
  | true =>
    have hret : q.enqueue true data = .ret () := by cases q <;> rfl
    rw [hret]
    exact ⟨hagrees, fun hmode => by cases hmode⟩
  | false =>
    have hcalls : ((q.enqueue false data).lift (.on q) fun _ r => r : Prog ClientOp.Res Unit).All
        fun op => ∃ o, op = .on q o := Prog.all_lift (fun o => ⟨o, rfl⟩) _
    refine Prog.Outline.mono (Q := fun _ u => FlagAgrees u ∧ u.isClosed = false)
      (fun _ u hu => ⟨hu.1, fun hmode => by cases hmode⟩) ?_
    refine Prog.outline_of_invariant ?_ ?_ hcalls ⟨hagrees, hclosed⟩
    · rintro _ u ⟨o, rfl⟩ ⟨hu, hopen⟩
      have hframe := framed_on hu hopen q o
      exact ⟨hframe, hframe.flagAgrees hu, hframe.isClosed.trans hopen⟩
    · exact fun u v hv hu => ⟨Framed.flagAgrees hv hu.1, (Framed.isClosed hv).trans hu.2⟩

/-- One of the two `close` calls, on a channel that is still open. -/
theorem closing_close {s : ClientQueues} {done : QueueKind → Bool} (hs : ClosedAt done s)
    {q : QueueKind} (hq : done q = false) : Closing s ((ClientOp.close q).run s).2 ∧
      ClosedAt (Function.update done q true) ((ClientOp.close q).run s).2 := by
  have hopen : s.closed q = false := (hs q).1.trans hq
  have hnone : s.closes q = 0 := by
    rw [(hs q).2, hq]
    rfl
  have hother {q' : QueueKind} : s.closes q' ≤ 1 := by
    rw [(hs q').2]
    exact Bool.toNat_le _
  constructor
  · constructor
    · intro q'
      by_cases hq' : q' = q
      · simp only [ClientOp.run, hq', Function.update_self, hnone]
        omega
      · simp only [ClientOp.run, Function.update_of_ne hq']
        exact ⟨le_rfl, hother⟩
    · exact id
    · simp only [ClientOp.run, hopen, Bool.or_false]
    · exact fun _ => rfl
  · intro q'
    by_cases hq' : q' = q
    · rw [hq']
      simp [ClientOp.run, hnone]
    · simp only [ClientOp.run, Function.update_of_ne hq']
      exact hs q'

theorem closeLocked_allowed : Allowed ClientOp.run closePolicy .write closeLocked := by
  intro s hs t ht
  have hagrees : FlagAgrees t := Framed.flagAgrees ht hs
  have hle (q : QueueKind) : t.closes q ≤ 1 := by
    rw [(hagrees q).2]
    exact Bool.toNat_le _
  refine ⟨⟨fun q => ⟨le_rfl, hle q⟩, id, rfl, fun _ => rfl⟩, ?_⟩
  cases hclosed : t.isClosed with
  | true =>
    show Inside ClientOp.run closePolicy .write (if t.isClosed then pure () else _) t
    rw [if_pos hclosed]
    exact ⟨hagrees, fun _ => hclosed⟩
  | false =>
    show Inside ClientOp.run closePolicy .write (if t.isClosed then pure () else _) t
    rw [hclosed, if_neg Bool.false_ne_true]
    have hopen : ClosedAt (fun _ => false) t := fun q => by
      have hq := hagrees q
      rw [hclosed] at hq
      exact hq
    -- the flag, then `highPri`, then `send`
    intro u hu
    have hu' : ClosedAt (fun _ => false) u := hu.closedAt hopen
    refine ⟨⟨fun q => ⟨le_rfl, ?_⟩, fun _ => rfl, rfl, fun _ => rfl⟩, ?_⟩
    · show u.closes q ≤ 1
      rw [(hu' q).2]
      exact Nat.zero_le 1
    intro v hv
    have hv' : ClosedAt (fun _ => false) v := hv.closedAt hu'
    obtain ⟨hclosing, hhighPri⟩ := closing_close hv' (q := .highPri) rfl
    refine ⟨hclosing, ?_⟩
    intro w hw
    have hw' := hw.closedAt hhighPri
    obtain ⟨hclosing, hsend⟩ := closing_close hw' (q := .send) rfl
    have hflag : w.isClosed = true := hw.isClosed.trans hv.isClosed
    refine ⟨hclosing, fun q => ?_, fun _ => hflag⟩
    have hall : Function.update (Function.update (fun _ => false) QueueKind.highPri true) .send
        true q = true := by cases q <;> rfl
    have hq := hsend q
    rw [hall] at hq
    show _ = w.isClosed ∧ _ = w.isClosed.toNat
    rw [hflag]
    exact hq

theorem ClientCall.allowed (c : ClientCall) : Allowed ClientOp.run closePolicy c.mode c.body := by
  cases c with
  | send c => exact enqueueLocked_allowed .send c.frame
  | sendPriorityJSON msg timestamp => exact enqueueLocked_allowed .highPri (.json msg timestamp)
  | sendPriorityRawJSON msg timestamp => exact enqueueLocked_allowed .highPri (.json msg timestamp)
  | close => exact closeLocked_allowed

section Runs

variable {ι : Type} {s t : Outlet ι}

/-- Nothing has panicked, and once a `Close` has returned both channels are closed. -/
structure Shutdown (s : Outlet ι) : Prop where
  sound : Sound ClientOp.run closePolicy s.room
  panicked : s.room.shared.panicked = false
  closes : ∀ q, s.room.shared.closes q ≤ 1
  returned : s.closeReturned = true →
    s.room.shared.isClosed = true ∧ ∀ q, s.room.shared.closes q = 1

theorem shutdown_init : Shutdown ({} : Outlet ι) where
  sound := Sound.init fun _ => ⟨rfl, rfl⟩
  panicked := rfl
  closes _ := Nat.zero_le 1
  returned h := by cases h

/-- A message leaves a queue. -/
theorem framed_take (s : ClientQueues) {q : QueueKind} {message : Frame} {rest : Chan Frame}
    (htake : (s.chan q).take = some (message, rest)) :
    Framed s { s with chan := Function.update s.chan q rest } := by
  refine ⟨rfl, rfl, rfl, rfl, fun _ q' => ?_⟩
  show (Function.update s.chan q rest q').accepted = (s.chan q').accepted
  by_cases hq : q' = q
  · rw [hq, Function.update_self, (Chan.take_eq htake).2]
  · rw [Function.update_of_ne hq]

variable [Fintype ι] [DecidableEq ι]

/-- What each step keeps to. -/
theorem framed_or_closing (hs : Shutdown s) {e : OutletEvent ι} (h : outletStep s e = some t) :
    Sound ClientOp.run closePolicy t.room ∧
      (Framed s.room.shared t.room.shared ∨ Closing s.room.shared t.room.shared) := by
  cases (outletStep_effect h).room with
  | enters i c henter _ =>
    refine ⟨hs.sound.enter c.allowed henter, Or.inl ?_⟩
    rw [Room.enter_shared henter]
    exact Framed.refl _
  | turns i hturn _ => exact hs.sound.turn hturn
  | receives q message rest htake ht =>
    rw [ht]
    have hframe := framed_take s.room.shared htake
    exact ⟨hs.sound.environment hframe, Or.inl hframe⟩
  | stays hroom _ =>
    rw [hroom]
    exact ⟨hs.sound, Or.inl (Framed.refl _)⟩

/-- A returned `Close` has left the channels closed. -/
theorem shutdown_step (hs : Shutdown s) {e : OutletEvent ι} (h : outletStep s e = some t) :
    Shutdown t := by
  obtain ⟨hsound, hchange⟩ := framed_or_closing hs h
  have hkeep : s.room.shared.isClosed = true ∧ (∀ q, s.room.shared.closes q = 1) →
      t.room.shared.isClosed = true ∧ ∀ q, t.room.shared.closes q = 1 := by
    rintro ⟨hclosed, hcloses⟩
    rcases hchange with hframe | hclosing
    · exact ⟨hframe.isClosed.trans hclosed, fun q => by rw [hframe.closes, hcloses q]⟩
    · refine ⟨hclosing.isClosed hclosed, fun q => ?_⟩
      have hq := hclosing.closes q
      have hone := hcloses q
      omega
  refine ⟨hsound, ?_, fun q => ?_, fun hret => hkeep ?_⟩
  · rcases hchange with hframe | hclosing
    · exact hframe.panicked.trans hs.panicked
    · exact hclosing.panicked.trans hs.panicked
  · rcases hchange with hframe | hclosing
    · rw [hframe.closes]
      exact hs.closes q
    · exact (hclosing.closes q).2
  · -- a call that has returned before is closed already
    cases (outletStep_effect h).room with
    | enters i c _ hreturned => exact hs.returned (hreturned.symm.trans hret)
    | turns i _ hreturned =>
      rw [hreturned, Bool.or_eq_true, decide_eq_true_eq] at hret
      rcases hret with hbefore | hleaves
      · exact hs.returned hbefore
      · -- this goroutine is about to unlock
        obtain ⟨hagrees, hclosed⟩ := hs.sound.exit hleaves
        refine ⟨hclosed rfl, fun q => ?_⟩
        rw [(hagrees q).2, hclosed rfl]
        rfl
    | receives q message rest _ ht =>
      rw [ht] at hret
      exact hs.returned hret
    | stays _ hreturned => exact hs.returned (hreturned.symm.trans hret)

/-- After a `Close` has returned nothing enters a queue. -/
theorem accepted_step (hs : Shutdown s) (hret : s.closeReturned = true) {e : OutletEvent ι}
    (h : outletStep s e = some t) (q : QueueKind) :
    (t.room.shared.chan q).accepted = (s.room.shared.chan q).accepted := by
  obtain ⟨_, hframe | hclosing⟩ := framed_or_closing hs h
  · exact hframe.accepted (hs.returned hret).1 q
  · exact hclosing.accepted q

theorem closeReturned_step {e : OutletEvent ι} (h : outletStep s e = some t)
    (hret : s.closeReturned = true) : t.closeReturned = true := by
  cases (outletStep_effect h).room with
  | enters i c _ hreturned => exact hreturned.trans hret
  | turns i _ hreturned => rw [hreturned, hret, Bool.true_or]
  | receives q message rest _ ht => exact (congrArg Outlet.closeReturned ht).trans hret
  | stays _ hreturned => exact hreturned.trans hret

/-- In any run of any number of goroutines that call the methods of a client, and of `WritePump`,
nobody sends on a closed channel or closes one twice; once a `Close` has returned each of the two
has been closed, and nothing is enqueued any more. -/
theorem close_safe {es : List (OutletEvent ι)} (r : Run outletStep {} es s) :
    s.room.shared.panicked = false ∧ (∀ q, s.room.shared.closes q ≤ 1) ∧
      (s.closeReturned = true → (∀ q, s.room.shared.closes q = 1) ∧
        ∀ es' t, Run outletStep s es' t →
          ∀ q, (t.room.shared.chan q).accepted = (s.room.shared.chan q).accepted) := by
  have hs : Shutdown s := r.invariant (fun _ _ _ hs h => shutdown_step hs h) shutdown_init
  refine ⟨hs.panicked, hs.closes, fun hret => ⟨(hs.returned hret).2, fun es' t r' => ?_⟩⟩
  have hkept : Shutdown t ∧ t.closeReturned = true ∧
      ∀ q, (t.room.shared.chan q).accepted = (s.room.shared.chan q).accepted := by
    refine r'.invariant (I := fun u => Shutdown u ∧ u.closeReturned = true ∧
      ∀ q, (u.room.shared.chan q).accepted = (s.room.shared.chan q).accepted) ?_
      ⟨hs, hret, fun _ => rfl⟩
    rintro u e v ⟨hu, huret, hsame⟩ h
    exact ⟨shutdown_step hu h, closeReturned_step h huret,
      fun q => (accepted_step hu huret h q).trans (hsame q)⟩
  exact hkept.2.2

/-- A packet is enqueued and received while another goroutine waits to close the client. -/
def closingRun : List (OutletEvent Bool) :=
  [.call false (.send (.sendBinary [1])), .turn (some false), .call true .close,
    .turn (some true), .poll, .turn (some false), .turn (some false), .select (.queue .send),
    .turn (some false)] ++ List.replicate 6 (.turn (some true)) ++ [.wrote true]

theorem close_safe_closingRun : ∃ s : Outlet Bool, Run outletStep {} closingRun s ∧
    s.closeReturned = true ∧ ∀ q, s.room.shared.closes q = 1 := by
  have r := run_get outletStep ({} : Outlet Bool) closingRun (by decide +kernel)
  have hret : ((closingRun.foldlM outletStep ({} : Outlet Bool)).get
    (by decide +kernel)).closeReturned = true := by decide +kernel
  exact ⟨_, r, hret, ((close_safe r).2.2 hret).1⟩

end Runs

end TwoWayRadio

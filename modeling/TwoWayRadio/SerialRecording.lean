import TwoWayRadio.RecordingAttribution

/-! Recordings when the hub runs one handler at a time: every hold of a floor has its buffer, and
ends in its recording. -/
namespace TwoWayRadio
open Interleaving Transition

/-- A handler starts when no other is running. -/
def OneAtATime {γ : Type} (s : Server γ) (e : ServerEvent) : Prop :=
  ∀ r, e = .serve r → ∀ i, s.pool.Idle i

/-- The call does not end a hold without its transmission, and does not start a transmission
over the bytes of another in the same hold. -/
def HubOp.keepsTransmission (h : Hub) : HubOp → Bool
  | removeSubscriber ch x => h.holder ch ≠ some x
  | requestFloor ch x =>
    h.holder ch ≠ some x || (h.activeTX ch).all fun tx => tx.buffer.isEmpty
  | _ => true

def TransmissionsKept (s : Server RecordingHistory) (e : ServerEvent) : Prop :=
  ∀ i ∈ e.thread, e = .advance i → ∀ op ∈ (s.pool.task i).nextCall,
    op.keepsTransmission s.hub = true

instance (s : Server RecordingHistory) (e : ServerEvent) : Decidable (TransmissionsKept s e) :=
  inferInstanceAs (Decidable (∀ i ∈ e.thread, e = .advance i →
    ∀ op ∈ (s.pool.task i).nextCall, op.keepsTransmission s.hub = true))

/-- How many recordings were saved of the hold of channel `c` in epoch `e`. -/
def RecordingHistory.saves (c : ChannelID) (e : ℕ) (g : RecordingHistory) : ℕ :=
  g.saved.countP fun sv => sv.channelID = c ∧ sv.take.any fun tk => tk.hold = e

/-- The recorder has a buffer for exactly the held floors, in the holder's name. -/
def RecorderAgrees (s : Server RecordingHistory) : Prop :=
  ∀ c, (s.hub.activeTX c = none ↔ s.hub.holder c = none) ∧
    ∀ tx x, s.hub.activeTX c = some tx → s.hub.holder c = some x →
      tx.speakerID = (s.hub.heap x).id

/-- Every hold that is over has one recording if enough was buffered in it. -/
def HoldsRecorded (s : Server RecordingHistory) : Prop :=
  ∀ c e, e < s.history.floors.epoch c → minRecordingBytes ≤ s.history.buffered c e →
    s.history.saves c e = 1

namespace Stance

/-- The channel whose transmission a handler has still to end. -/
def ends : Stance → Option ChannelID
  | preempting c _ _ | released c _ | expired c _ => some c
  | _ => none

variable {can : (op : HubOp) → op.Res → Prop} {i : Thread} {s : Stance} {op : HubOp} {h : Hub}
  {c : ChannelID}

/-- Calls that neither look at a floor nor record settle nothing with the recorder. -/
theorem next_settles (hok : op.background = true ∨ s.expects can i op) (hop : op.looksAt = none)
    (hrec : op.records = false) (r : op.Res) :
    (s.next op r).ends = s.ends ∧ ∀ c x, s.owes = some (.start, c, x) →
      (s.next op r).owes = some (.start, c, x) := by
  refine ⟨?_, fun c x hs => ?_⟩
  · have htold : ∀ {msg : Signal} {moved stays : Stance}, moved.ends = stays.ends →
        (told msg moved stays).ends = stays.ends := by
      intro msg moved stays h
      exact told_rule (fun s => s.ends = stays.ends) (fun _ => h) rfl
    fun_cases next s op r <;> first
      | exact absurd hop (Option.some_ne_none _)
      | exact absurd hrec.symm Bool.false_ne_true
      | rfl
      | exact htold rfl
  · rcases next_owes hok hop r with hsame | ⟨_, hsettled⟩
    · rw [hsame, hs]
    · rw [hsettled c x hs] at hrec
      cases hrec

/-- A call that looks at a floor is made by a handler with no transmission to end. If it keeps
the transmissions, it leaves one to end exactly where it ends a hold. -/
theorem looked_ends (hb : h.BusyAgrees) (hok : op.background = true ∨ s.expects can i op)
    (hop : op.looksAt = some c) (hkeeps : op.keepsTransmission h = true) :
    s.ends = none ∧
      (((s.next op (op.run h).1).ends = some c ∧ (op.run h).2.holder c ≠ h.holder c) ∨
        ((s.next op (op.run h).1).ends = none ∧
          ((op.run h).2.holder c = h.holder c ∨ h.holder c = none))) := by
  -- the six calls that look at a floor, each with the stance that makes it
  cases looks hok hop with
  | removes x =>
    refine ⟨rfl, Or.inr ?_⟩
    rcases HubOp.removeSubscriber_run h c x with
      ⟨hheld, _⟩ | ⟨_, hr, hsame⟩
    · -- a holder that leaves its channel would take its transmission with it
      exact absurd hheld (of_decide_eq_true hkeeps)
    · rw [hr]
      exact ⟨rfl, Or.inl hsame⟩
  | requests x _ =>
    refine ⟨rfl, ?_⟩
    have hreq := HubOp.requestFloor_run c x hb
    generalize h.holder c = before at hreq ⊢
    generalize ((HubOp.requestFloor c x).run h).1 = reply at hreq ⊢
    generalize ((HubOp.requestFloor c x).run h).2.holder c = after at hreq ⊢
    cases hreq with
    | absent => exact Or.inr ⟨rfl, Or.inl rfl⟩
    | free => exact Or.inr ⟨rfl, Or.inr rfl⟩
    | held => exact Or.inr ⟨rfl, Or.inl rfl⟩
    -- the floor is taken over: the transmission of the old holder has to end
    | preempts y hne hp => exact Or.inl ⟨rfl, fun heq => hne (Option.some.inj heq).symm⟩
    | denied y hne hp => exact Or.inr ⟨rfl, Or.inl rfl⟩
  | releases x _ =>
    refine ⟨rfl, ?_⟩
    rcases HubOp.releaseFloor_run h c x with
      ⟨hheld, hr, hfree⟩ | ⟨_, hr, hsame⟩ <;> rw [hr]
    · rw [hheld, hfree]
      exact Or.inl ⟨rfl, (Option.some_ne_none x).symm⟩
    · exact Or.inr ⟨rfl, Or.inl hsame⟩
  | checks x =>
    refine ⟨rfl, Or.inr ⟨?_, Or.inl rfl⟩⟩
    cases ((HubOp.isFloorHolder c x).run h).1 <;> rfl
  | reads x => exact ⟨rfl, Or.inr ⟨rfl, Or.inl rfl⟩⟩
  | expires timer =>
    refine ⟨rfl, ?_⟩
    rcases HubOp.handleTOT_run h c timer with
      ⟨hr, hsame⟩ | ⟨y, hr, hheld, hfree⟩ <;> rw [hr]
    · exact Or.inr ⟨rfl, Or.inl hsame⟩
    · rw [hheld, hfree]
      exact Or.inl ⟨rfl, (Option.some_ne_none y).symm⟩

/-- A start comes to be due where its client has just asked for the floor. -/
theorem requested_of_start {x : ClientRef} (hok : op.background = true ∨ s.expects can i op)
    (hop : op.looksAt = some c) {r : op.Res}
    (hs : (s.next op r).owes = some (.start, c, x)) : op = .requestFloor c x := by
  cases looks hok hop with
  | removes y => cases r <;> cases hs
  | requests y _ =>
    have howner : ∀ {z : ClientRef} {reply : FloorReply},
        ((asking z).next (.requestFloor c y) reply).owes = some (.start, c, x) → y = x := by
      rintro z ⟨granted, reason, speaker, preempted⟩ hs
      cases granted <;> cases preempted <;> cases hs <;> rfl
    rw [howner hs]
  | releases y _ => cases r <;> cases hs
  | checks y => cases r <;> cases hs
  | reads x => cases hs
  | expires timer => cases r <;> cases hs

end Stance

/-- While no handler but `i` is under way: the held floors have their buffers, up to the calls
that `i` has still to make, and the recordings are those of the holds that are over. -/
structure Paired (h : Hub) (g : RecordingHistory) (i : Thread) : Prop where
  others : ∀ j, j ≠ i → g.floors.stance j = .fresh
  now : ∀ c, (g.floors.stance i).channel = some c → g.floors.since i = g.floors.epoch c
  begun : ∀ c x, h.holder c = some x →
    (∃ tk, g.takes c = some tk ∧ tk.hold = g.floors.epoch c) ∨
      (g.floors.stance i).owes = some (.start, c, x)
  take : ∀ c tk, g.takes c = some tk →
    (tk.hold = g.floors.epoch c ∧ (g.floors.stance i).ends ≠ some c) ∨
      (tk.hold + 1 = g.floors.epoch c ∧ (g.floors.stance i).ends = some c)
  starting : ∀ c x, (g.floors.stance i).owes = some (.start, c, x) →
    g.buffered c (g.floors.epoch c) = 0
  future : ∀ c e, g.floors.epoch c < e → g.buffered c e = 0
  opened : ∀ c tk, g.takes c = some tk →
    g.saves c tk.hold = 0 ∧ g.buffered c tk.hold = (tk.chunks.flatMap Chunk.payload).length
  closed : ∀ c e, (∀ tk, g.takes c = some tk → tk.hold ≠ e) →
    g.saves c e = if minRecordingBytes ≤ g.buffered c e then 1 else 0

namespace Paired

variable {heap : Clients} {h : Hub} {g : RecordingHistory} {task : Thread → HubProg Unit}
  {i : Thread} {op : HubOp} {c : ChannelID}

theorem others_sees (hp : Paired h g i) (r : op.Res) (j : Thread) (hj : j ≠ i) :
    (g.floors.sees i op r h).stance j = .fresh := by
  rw [FloorHistory.sees_stance_of_ne hj]
  exact hp.others j hj

/-- What a handler knows of its floor stays up to date while no other moves. -/
theorem now_sees {can : (op : HubOp) → op.Res → Prop} (hp : Paired h g i) (hb : h.BusyAgrees)
    (hok : op.background = true ∨ (g.floors.stance i).expects can i op)
    (hc : ((g.floors.sees i op (op.run h).1 h).stance i).channel = some c) :
    (g.floors.sees i op (op.run h).1 h).since i = g.floors.epochAfter op h c := by
  rw [FloorHistory.sees_stance_self] at hc
  cases hop : op.looksAt with
  | none =>
    rw [FloorHistory.sees_since_unlooked i hop]
    have hep : g.floors.epochAfter op h c = g.floors.epoch c :=
      if_pos (HubOp.holder_run_of_unlooked hop h c)
    rw [hep]
    rcases Stance.next_channel hop (op.run h).1 with hnone | ⟨hsame, _⟩
    · rw [hnone] at hc
      cases hc
    · exact hp.now c (hsame.symm.trans hc)
  | some c' =>
    rw [FloorHistory.sees_since_looked i hop]
    rcases Stance.believes_looked hb hok hop with hnone | ⟨hsome, _⟩
    · rw [hnone] at hc
      cases hc
    · rw [hsome] at hc
      obtain rfl := Option.some.inj hc
      rfl

/-- What a call that looks at no floor has to leave of the takes and the recordings. -/
theorem unlooked {can : (op : HubOp) → op.Res → Prop} (hp : Paired h g i) (hb : h.BusyAgrees)
    (hok : op.background = true ∨ (g.floors.stance i).expects can i op)
    (hop : op.looksAt = none) {g' : RecordingHistory} {s' : Stance}
    (hfloors : g'.floors = g.floors.sees i op (op.run h).1 h)
    (hs' : (g.floors.stance i).next op (op.run h).1 = s')
    (hbegun : ∀ c x, h.holder c = some x →
      (∃ tk, g'.takes c = some tk ∧ tk.hold = g.floors.epoch c) ∨ s'.owes = some (.start, c, x))
    (htake : ∀ c tk, g'.takes c = some tk → (tk.hold = g.floors.epoch c ∧ s'.ends ≠ some c) ∨
      (tk.hold + 1 = g.floors.epoch c ∧ s'.ends = some c))
    (hstarting : ∀ c x, s'.owes = some (.start, c, x) → g'.buffered c (g.floors.epoch c) = 0)
    (hfuture : ∀ c e, g.floors.epoch c < e → g'.buffered c e = 0)
    (hopened : ∀ c tk, g'.takes c = some tk →
      g'.saves c tk.hold = 0 ∧ g'.buffered c tk.hold = (tk.chunks.flatMap Chunk.payload).length)
    (hclosed : ∀ c e, (∀ tk, g'.takes c = some tk → tk.hold ≠ e) →
      g'.saves c e = if minRecordingBytes ≤ g'.buffered c e then 1 else 0) :
    Paired (op.run h).2 g' i := by
  have hep : ∀ c, g'.floors.epoch c = g.floors.epoch c := fun c => by
    rw [hfloors]
    exact if_pos (HubOp.holder_run_of_unlooked hop h c)
  have hst : g'.floors.stance i = s' := by
    rw [hfloors, FloorHistory.sees_stance_self, hs']
  refine ⟨fun j hj => ?_, fun c hc => ?_, fun c x hc => ?_, fun c tk htk => ?_, fun c x hs => ?_,
    fun c e he => hfuture c e (hep c ▸ he), hopened, hclosed⟩
  · rw [hfloors]
    exact hp.others_sees _ j hj
  · rw [hfloors] at hc ⊢
    exact hp.now_sees hb hok hc
  · rw [hep, hst]
    rw [HubOp.holder_run_of_unlooked hop] at hc
    exact hbegun c x hc
  · rw [hep, hst]
    exact htake c tk htk
  · rw [hep]
    rw [hst] at hs
    exact hstarting c x hs

/-- A call that neither looks at a floor nor records. -/
theorem other {can : (op : HubOp) → op.Res → Prop} (hp : Paired h g i) (hb : h.BusyAgrees)
    (hok : op.background = true ∨ (g.floors.stance i).expects can i op)
    (hop : op.looksAt = none) (hrec : op.records = false) {g' : RecordingHistory}
    (hfloors : g'.floors = g.floors.sees i op (op.run h).1 h) (htakes : g'.takes = g.takes)
    (hbuffered : g'.buffered = g.buffered) (hsaved : g'.saved = g.saved) :
    Paired (op.run h).2 g' i := by
  obtain ⟨hends, howes⟩ := Stance.next_settles hok hop hrec (op.run h).1
  have hsaves : ∀ c e, g'.saves c e = g.saves c e := fun c e => by
    rw [RecordingHistory.saves, hsaved, RecordingHistory.saves]
  refine hp.unlooked hb hok hop hfloors rfl (fun c x hc => ?_) (fun c tk htk => ?_)
    (fun c x hs => ?_) (fun c e he => ?_) (fun c tk htk => ?_) (fun c e hc => ?_)
  · rw [htakes]
    exact (hp.begun c x hc).imp id (howes c x)
  · rw [hends]
    rw [htakes] at htk
    exact hp.take c tk htk
  · rw [hbuffered]
    rcases Stance.next_owes hok hop (op.run h).1 with hsame | ⟨hnone, _⟩
    · exact hp.starting c x (hsame.symm.trans hs)
    · rw [hnone] at hs
      cases hs
  · rw [hbuffered]
    exact hp.future c e he
  · rw [htakes] at htk
    rw [hsaves, hbuffered]
    exact hp.opened c tk htk
  · rw [htakes] at hc
    rw [hsaves, hbuffered]
    exact hp.closed c e hc

/-- A handler with no transmission to end finds only those of the holds that go on. -/
theorem hold_eq (hp : Paired h g i) (hends : (g.floors.stance i).ends = none) {tk : Take}
    (htk : g.takes c = some tk) : tk.hold = g.floors.epoch c := by
  rcases hp.take c tk htk with ⟨hnow, _⟩ | ⟨_, hend⟩
  · exact hnow
  · rw [hends] at hend
    cases hend

/-- A call that looks at a floor and keeps the transmissions. -/
theorem look {can : (op : HubOp) → op.Res → Prop} (hp : Paired h g i) (hb : h.BusyAgrees)
    (hk : g.Kept heap h) (hcurrent : ∀ c, g.floors.holderAt c (g.floors.epoch c) = h.holder c)
    (hok : op.background = true ∨ (g.floors.stance i).expects can i op)
    (hop : op.looksAt = some c) (hkeeps : op.keepsTransmission h = true) :
    Paired (op.run h).2 { g with floors := g.floors.sees i op (op.run h).1 h } i := by
  obtain ⟨hnone, hlooked⟩ := Stance.looked hb hok hop
  obtain ⟨hends, hends'⟩ := Stance.looked_ends hb hok hop hkeeps
  have hidle : ∀ {d c' x}, (g.floors.stance i).owes ≠ some (d, c', x) := by
    intro d c' x heq
    rw [hnone] at heq
    cases heq
  -- the caller owes nothing, so every take belongs to a hold that goes on
  have htake : ∀ {c' tk}, g.takes c' = some tk → tk.hold = g.floors.epoch c' :=
    hp.hold_eq hends
  have hheld : ∀ {c' tk}, g.takes c' = some tk → h.holder c' = some tk.speaker := by
    intro c' tk htk
    obtain ⟨_, _, he⟩ := hk.of_take htk
    rw [← hcurrent, ← htake htk]
    exact he.holder
  have hbegun : ∀ {c' x}, h.holder c' = some x →
      ∃ tk, g.takes c' = some tk ∧ tk.hold = g.floors.epoch c' := by
    intro c' x hc
    rcases hp.begun c' x hc with htk | hdue
    · exact htk
    · exact absurd hdue hidle
  have helse : ∀ {c'}, c' ≠ c → g.floors.epochAfter op h c' = g.floors.epoch c' ∧
      (op.run h).2.holder c' = h.holder c' := by
    intro c' hne
    have hsame := HubOp.holder_run_of_looksAt (h := h) hop hne
    exact ⟨if_pos hsame, hsame⟩
  refine ⟨hp.others_sees _, fun c hc => hp.now_sees hb hok hc, fun c' x hc => ?_,
    fun c' tk htk => ?_, fun c' x hs => ?_, fun c' e he => ?_, hp.opened, hp.closed⟩
  · rw [FloorHistory.sees_epoch, FloorHistory.sees_stance_self]
    rcases FloorHistory.epochAfter_cases op h g.floors c' with ⟨hsame, hholder⟩ | ⟨_, hchanged⟩
    · rw [hsame]
      rw [hholder] at hc
      exact Or.inl (hbegun hc)
    · have hcc : c' = c := by
        by_contra hne
        exact hchanged (helse hne).2
      rw [hcc] at hc hchanged ⊢
      exact Or.inr (Stance.Looked.owes_of_changed hlooked hchanged hc)
  · rw [FloorHistory.sees_epoch, FloorHistory.sees_stance_self]
    have hnow := htake htk
    by_cases hcc : c' = c
    · subst hcc
      rcases hends' with ⟨hend, hchanged⟩ | ⟨hend, hsame | hfree⟩
      · refine Or.inr ⟨?_, hend⟩
        rw [hnow]
        exact (if_neg hchanged).symm
      · refine Or.inl ⟨hnow.trans (if_pos hsame).symm, ?_⟩
        rw [hend]
        exact (Option.some_ne_none _).symm
      · -- a floor with a take was not idle
        rw [hheld htk] at hfree
        cases hfree
    · refine Or.inl ⟨hnow.trans (helse hcc).1.symm, ?_⟩
      rcases hends' with ⟨hend, _⟩ | ⟨hend, _⟩ <;> rw [hend]
      · exact fun heq => hcc (Option.some.inj heq).symm
      · exact (Option.some_ne_none _).symm
  · rw [FloorHistory.sees_stance_self] at hs
    rw [FloorHistory.sees_epoch]
    have hcc : c' = c := by
      rw [hs] at hlooked
      exact hlooked.owner.2
    rw [hcc] at hs ⊢
    rcases FloorHistory.epochAfter_cases op h g.floors c with ⟨hsame, hholder⟩ | ⟨hnext, _⟩
    · -- the holder asks again, with nothing in its buffer
      rw [hsame]
      obtain rfl := Stance.requested_of_start hok hop hs
      have hafter : ((HubOp.requestFloor c x).run h).2.holder c = some x := by
        rw [hs] at hlooked
        exact hlooked.holder_of_start
      have hbefore : h.holder c = some x := hholder.symm.trans hafter
      obtain ⟨tk, htk, hnow⟩ := hbegun hbefore
      obtain ⟨tx, htx, he⟩ := hk.of_take htk
      rw [← hnow, (hp.opened c tk htk).2, ← he.bytes]
      have hempty : tx.buffer.isEmpty = true := by
        simpa [HubOp.keepsTransmission, hbefore, htx] using hkeeps
      rw [List.isEmpty_iff.mp hempty]
      rfl
    · rw [hnext]
      exact hp.future c _ (Nat.lt_succ_self _)
  · exact hp.future c' e ((FloorHistory.epoch_le_epochAfter op h g.floors c').trans_lt he)

/-- The grant's transmission starts. -/
theorem start {can : (op : HubOp) → op.Res → Prop} (hp : Paired h g i) (hb : h.BusyAgrees)
    (hrec : h.recording = true) {x : ClientRef} (hst : g.floors.stance i = .granted c x)
    (hok : (HubOp.onTransmissionStart c x).background = true ∨
      (g.floors.stance i).expects can i (.onTransmissionStart c x)) :
    Paired ((HubOp.onTransmissionStart c x).run h).2
      (g.sees i (.onTransmissionStart c x) ((HubOp.onTransmissionStart c x).run h).1 h) i := by
  have hends : (g.floors.stance i).ends = none := by rw [hst]; rfl
  have hnow : (g.floors.sees i (.onTransmissionStart c x)
      ((HubOp.onTransmissionStart c x).run h).1 h).since i = g.floors.epoch c :=
    (FloorHistory.sees_since_unlooked i rfl _).trans (hp.now c (by rw [hst]; rfl))
  have htakes : (g.sees i (.onTransmissionStart c x)
      ((HubOp.onTransmissionStart c x).run h).1 h).takes =
      Function.update g.takes c (some ⟨x, g.floors.epoch c, []⟩) := by
    show (if h.recording = true then _ else _) = _
    rw [if_pos hrec, hnow]
  have hempty := hp.starting c x (by rw [hst]; rfl)
  -- the hold has saved nothing yet, whether or not it has a take already
  have hunsaved : g.saves c (g.floors.epoch c) = 0 := by
    cases htk : g.takes c with
    | none =>
      have hno : ∀ tk, g.takes c = some tk → tk.hold ≠ g.floors.epoch c := fun tk htk' =>
        absurd (htk.symm.trans htk') (Option.some_ne_none tk).symm
      rw [hp.closed c _ hno, hempty]
      exact if_neg (by decide)
    | some tk =>
      rw [← hp.hold_eq hends htk]
      exact (hp.opened c tk htk).1
  have hnext : (g.floors.stance i).next (.onTransmissionStart c x)
      ((HubOp.onTransmissionStart c x).run h).1 = .confirming c x := by rw [hst]; rfl
  refine hp.unlooked hb hok rfl rfl hnext
    (fun c' y hc' => ?_) (fun c' tk htk => Or.inl ⟨?_, (Option.some_ne_none c').symm⟩)
    (fun c' y hs => by cases hs) hp.future (fun c' tk htk => ?_) (fun c' e hc' => ?_)
  · rw [htakes]
    by_cases hcc : c' = c
    · rw [hcc, Function.update_self]
      exact Or.inl ⟨_, rfl, rfl⟩
    · rw [Function.update_of_ne hcc]
      refine (hp.begun c' y hc').imp id fun hdue => ?_
      rw [hst] at hdue
      cases hdue
      exact absurd rfl hcc
  · rw [htakes] at htk
    by_cases hcc : c' = c
    · rw [hcc, Function.update_self] at htk
      rw [← Option.some.inj htk, hcc]
    · rw [Function.update_of_ne hcc] at htk
      exact hp.hold_eq hends htk
  · rw [htakes] at htk
    by_cases hcc : c' = c
    · subst hcc
      rw [Function.update_self] at htk
      obtain rfl := Option.some.inj htk
      exact ⟨hunsaved, hempty⟩
    · rw [Function.update_of_ne hcc] at htk
      exact hp.opened c' tk htk
  · rw [htakes] at hc'
    refine hp.closed c' e fun tk htk => ?_
    by_cases hcc : c' = c
    · subst hcc
      rw [hp.hold_eq hends htk]
      exact hc' _ (Function.update_self ..)
    · exact hc' tk (by rw [Function.update_of_ne hcc, htk])

/-- A payload that the recorder keeps makes the take of its hold grow. -/
structure Grown (g g' : RecordingHistory) (c : ChannelID) (tk tk' : Take) (payload : Bytes) :
    Prop where
  hold : tk'.hold = tk.hold
  length : (tk'.chunks.flatMap Chunk.payload).length =
    (tk.chunks.flatMap Chunk.payload).length + payload.length
  takes : g'.takes = Function.update g.takes c (some tk')
  buffered : g'.buffered = Function.update g.buffered c (Function.update (g.buffered c)
    (g.floors.epoch c) (g.buffered c (g.floors.epoch c) + payload.length))
  saves : ∀ c' e, g'.saves c' e = g.saves c' e

theorem grown_append {payload : Bytes} {tk : Take} (htk : g.takes c = some tk)
    (hkept : ((HubOp.appendAudio c payload).run h).2.activeTX c ≠ h.activeTX c) :
    ∃ tk', Grown g (g.sees i (.appendAudio c payload) ((HubOp.appendAudio c payload).run h).1 h) c
      tk tk' payload := by
  have hepoch : (g.floors.sees i (.appendAudio c payload)
      ((HubOp.appendAudio c payload).run h).1 h).epoch c = g.floors.epoch c :=
    if_pos (HubOp.holder_run_of_unlooked rfl h c)
  refine ⟨{ tk with chunks := tk.chunks ++
    [⟨i, (g.floors.sees i (.appendAudio c payload) () h).since i, payload⟩] },
    rfl, by simp, ?_, ?_, fun c' e => ?_⟩
  · simp only [RecordingHistory.sees]
    rw [if_neg hkept]
    dsimp only
    rw [htk]
    rfl
  · simp only [RecordingHistory.sees]
    rw [if_neg hkept]
    dsimp only
    rw [hepoch]
  · simp only [RecordingHistory.saves, RecordingHistory.sees]
    rw [if_neg hkept]

section Grown

variable {g' : RecordingHistory} {tk tk' : Take} {payload : Bytes}

/-- All takes are still those of the holds that go on. -/
theorem Grown.hold_eq (hgrown : Grown g g' c tk tk' payload) (hp : Paired h g i)
    (hends : (g.floors.stance i).ends = none) (htk : g.takes c = some tk) {c' : ChannelID}
    {tk₁ : Take} (htk₁ : g'.takes c' = some tk₁) : tk₁.hold = g.floors.epoch c' := by
  rw [hgrown.takes] at htk₁
  by_cases hcc : c' = c
  · rw [hcc, Function.update_self] at htk₁
    rw [← Option.some.inj htk₁, hcc]
    exact hgrown.hold.trans (hp.hold_eq hends htk)
  · rw [Function.update_of_ne hcc] at htk₁
    exact hp.hold_eq hends htk₁

theorem Grown.future (hgrown : Grown g g' c tk tk' payload) (hp : Paired h g i)
    (c' : ChannelID) (e : ℕ) (he : g.floors.epoch c' < e) : g'.buffered c' e = 0 := by
  rw [hgrown.buffered]
  by_cases hcc : c' = c
  · rw [hcc] at he ⊢
    rw [Function.update_self, Function.update_of_ne (Nat.ne_of_gt he)]
    exact hp.future c e he
  · rw [Function.update_of_ne hcc]
    exact hp.future c' e he

theorem Grown.opened (hgrown : Grown g g' c tk tk' payload) (hp : Paired h g i)
    (hends : (g.floors.stance i).ends = none) (htk : g.takes c = some tk) (c' : ChannelID)
    (tk₁ : Take) (htk₁ : g'.takes c' = some tk₁) :
    g'.saves c' tk₁.hold = 0 ∧
      g'.buffered c' tk₁.hold = (tk₁.chunks.flatMap Chunk.payload).length := by
  obtain ⟨hunsaved, hbytes⟩ := hp.opened c tk htk
  have hhold := hp.hold_eq hends htk
  rw [hgrown.takes] at htk₁
  rw [hgrown.saves, hgrown.buffered]
  by_cases hcc : c' = c
  · subst hcc
    rw [Function.update_self] at htk₁
    obtain rfl := Option.some.inj htk₁
    rw [hgrown.hold, Function.update_self, hgrown.length, ← hbytes, hhold, Function.update_self]
    exact ⟨hhold ▸ hunsaved, rfl⟩
  · rw [Function.update_of_ne hcc] at htk₁ ⊢
    exact hp.opened c' tk₁ htk₁

theorem Grown.closed (hgrown : Grown g g' c tk tk' payload) (hp : Paired h g i)
    (hends : (g.floors.stance i).ends = none) (htk : g.takes c = some tk) (c' : ChannelID) (e : ℕ)
    (hc' : ∀ tk₁, g'.takes c' = some tk₁ → tk₁.hold ≠ e) :
    g'.saves c' e = if minRecordingBytes ≤ g'.buffered c' e then 1 else 0 := by
  rw [hgrown.takes] at hc'
  rw [hgrown.saves, hgrown.buffered]
  by_cases hcc : c' = c
  · subst hcc
    -- a closed hold of this channel is not the one that is going on
    have hne : g.floors.epoch c' ≠ e := by
      have hne' := hc' tk' (Function.update_self ..)
      rwa [hgrown.hold, hp.hold_eq hends htk] at hne'
    rw [Function.update_self, Function.update_of_ne hne.symm]
    refine hp.closed c' e fun tk₁ htk₁ => ?_
    rw [hp.hold_eq hends htk₁]
    exact hne
  · rw [Function.update_of_ne hcc]
    exact hp.closed c' e fun tk₁ htk₁ => hc' tk₁ (by rw [Function.update_of_ne hcc, htk₁])

end Grown

/-- A payload goes to the take of the hold that is going on. -/
theorem append {can : (op : HubOp) → op.Res → Prop} (hp : Paired h g i) (hb : h.BusyAgrees)
    (hk : g.Kept heap h) {x : ClientRef} {payload : Bytes}
    (hst : g.floors.stance i = .appending c x)
    (hok : (HubOp.appendAudio c payload).background = true ∨
      (g.floors.stance i).expects can i (.appendAudio c payload)) :
    Paired ((HubOp.appendAudio c payload).run h).2
      (g.sees i (.appendAudio c payload) ((HubOp.appendAudio c payload).run h).1 h) i := by
  have hends : (g.floors.stance i).ends = none := by rw [hst]; rfl
  have hnext : (g.floors.stance i).next (.appendAudio c payload)
      ((HubOp.appendAudio c payload).run h).1 = .dispatching c x := by rw [hst]; rfl
  have hbegun : ∀ {c' y}, h.holder c' = some y →
      ∃ tk, g.takes c' = some tk ∧ tk.hold = g.floors.epoch c' := by
    intro c' y hc'
    rcases hp.begun c' y hc' with htk | hdue
    · exact htk
    · rw [hst] at hdue
      cases hdue
  by_cases hsame : ((HubOp.appendAudio c payload).run h).2.activeTX c = h.activeTX c
  · -- a payload that the recorder does not keep changes the stance alone
    have hsees : g.sees i (.appendAudio c payload) ((HubOp.appendAudio c payload).run h).1 h =
        { g with floors := g.floors.sees i (.appendAudio c payload) _ h } := if_pos hsame
    rw [hsees]
    exact hp.unlooked hb hok rfl rfl hnext (fun c' y hc' => Or.inl (hbegun hc'))
      (fun c' tk htk => Or.inl ⟨hp.hold_eq hends htk, (Option.some_ne_none c').symm⟩)
      (fun c' y hs => by cases hs) hp.future hp.opened hp.closed
  · obtain ⟨tk, htk⟩ : ∃ tk, g.takes c = some tk := by
      rcases hk.takes c with ⟨hnone, _⟩ | ⟨_, tk, _, htk, _⟩
      · refine absurd ?_ hsame
        rw [HubOp.appendAudio_run, hnone]
        split_ifs <;> rfl
      · exact ⟨tk, htk⟩
    obtain ⟨tk', hgrown⟩ := grown_append (i := i) htk hsame
    refine hp.unlooked hb hok rfl (g.sees_floors i (.appendAudio c payload) _ h) hnext
      (fun c' y hc' => ?_)
      (fun c' tk₁ htk₁ => Or.inl
        ⟨hgrown.hold_eq hp hends htk htk₁, (Option.some_ne_none c').symm⟩)
      (fun c' y hs => by cases hs) (hgrown.future hp) (hgrown.opened hp hends htk)
      (hgrown.closed hp hends htk)
    rw [hgrown.takes]
    by_cases hcc : c' = c
    · rw [hcc, Function.update_self]
      exact Or.inl ⟨tk', rfl, hgrown.hold.trans (hp.hold_eq hends htk)⟩
    · rw [Function.update_of_ne hcc]
      exact Or.inl (hbegun hc')

/-- The end of a transmission counts for the hold of its take. -/
theorem saves_finish (c' : ChannelID) (e : ℕ) :
    (g.sees i (.onTransmissionEnd c) ((HubOp.onTransmissionEnd c).run h).1 h).saves c' e =
      g.saves c' e + if ((HubOp.onTransmissionEnd c).run h).1.isSome = true ∧ c = c' ∧
        (g.takes c).any (fun tk => tk.hold = e) = true then 1 else 0 := by
  show List.countP _ (g.saved ++ (((HubOp.onTransmissionEnd c).run h).1.map fun recording =>
    (⟨c, recording, h.activeTX c, g.takes c⟩ : Saved)).toList) = _
  rw [List.countP_append]
  cases ((HubOp.onTransmissionEnd c).run h).1 with
  | none => simp [RecordingHistory.saves]
  | some recording =>
    by_cases hc : c = c' <;> simp [RecordingHistory.saves, List.countP_cons, hc]

/-- The recorder saves exactly what the take has buffered, if that is long enough. -/
theorem isSome_finish (hp : Paired h g i) (hk : g.Kept heap h) (hrec : h.recording = true)
    (hdisk : h.diskWritable = true) {tk : Take} (htk : g.takes c = some tk) :
    ((HubOp.onTransmissionEnd c).run h).1.isSome = true ↔
      minRecordingBytes ≤ g.buffered c tk.hold := by
  obtain ⟨tx, htx, he⟩ := hk.of_take htk
  rw [HubOp.onTransmissionEnd_saved, if_pos hrec, htx, (hp.opened c tk htk).2, ← he.bytes,
    Option.bind_some, hdisk]
  by_cases hlt : tx.buffer.length < minRecordingBytes
  · simp [hlt]
  · simp [hlt, Nat.le_of_not_lt hlt]

/-- A hold without a take has been saved once if enough was buffered, the one that ends too. -/
theorem closed_finish (hp : Paired h g i) (hk : g.Kept heap h) (hrec : h.recording = true)
    (hdisk : h.diskWritable = true) {c' : ChannelID} {e : ℕ}
    (hc' : ∀ tk, Function.update g.takes c none c' = some tk → tk.hold ≠ e) :
    (g.sees i (.onTransmissionEnd c) ((HubOp.onTransmissionEnd c).run h).1 h).saves c' e =
      if minRecordingBytes ≤ g.buffered c' e then 1 else 0 := by
  rw [saves_finish]
  by_cases hcc : c' = c
  swap
  · rw [if_neg fun hp => hcc hp.2.1.symm]
    exact hp.closed c' e fun tk htk => hc' tk (by rw [Function.update_of_ne hcc, htk])
  subst hcc
  cases htk : g.takes c' with
  | none =>
    rw [if_neg fun hp => Bool.false_ne_true hp.2.2]
    exact hp.closed c' e fun tk htk' => absurd (htk.symm.trans htk') (Option.some_ne_none tk).symm
  | some tk =>
    by_cases hhold : tk.hold = e
    · subst hhold
      have hlong := hp.isSome_finish hk hrec hdisk htk
      rw [(hp.opened c' tk htk).1, Nat.zero_add]
      exact if_congr ⟨fun hp => hlong.mp hp.1, fun hl => ⟨hlong.mpr hl, rfl, by simp⟩⟩ rfl rfl
    · -- the take was of another hold, so this one was closed before
      rw [if_neg fun hp => hhold (by simpa using hp.2.2)]
      refine hp.closed c' e fun tk' htk' => ?_
      rw [htk] at htk'
      rwa [← Option.some.inj htk']

/-- A transmission ends, and is saved if enough was buffered. -/
theorem finish {can : (op : HubOp) → op.Res → Prop} (hp : Paired h g i) (hb : h.BusyAgrees)
    (hk : g.Kept heap h) (hrec : h.recording = true) (hdisk : h.diskWritable = true)
    (hok : (HubOp.onTransmissionEnd c).background = true ∨
      (g.floors.stance i).expects can i (.onTransmissionEnd c)) :
    Paired ((HubOp.onTransmissionEnd c).run h).2
      (g.sees i (.onTransmissionEnd c) ((HubOp.onTransmissionEnd c).run h).1 h) i := by
  have hends : (g.floors.stance i).ends = some c := by
    rcases Stance.expects_end hok with ⟨x, y, hst⟩ | ⟨x, hst⟩ | ⟨x, hst⟩ <;> rw [hst] <;> rfl
  have hends' : ((g.floors.stance i).next (.onTransmissionEnd c)
      ((HubOp.onTransmissionEnd c).run h).1).ends = none := by
    rcases Stance.expects_end hok with ⟨x, y, hst⟩ | ⟨x, hst⟩ | ⟨x, hst⟩ <;> rw [hst] <;> rfl
  -- takes of other channels belong to holds that go on, the one of `c` to the hold before
  have hother : ∀ {c' tk}, c' ≠ c → g.takes c' = some tk → tk.hold = g.floors.epoch c' := by
    intro c' tk hne htk
    rcases hp.take c' tk htk with ⟨hnow, _⟩ | ⟨_, hend⟩
    · exact hnow
    · rw [hends] at hend
      exact absurd (Option.some.inj hend).symm hne
  have hended : ∀ {tk}, g.takes c = some tk → tk.hold + 1 = g.floors.epoch c := by
    intro tk htk
    rcases hp.take c tk htk with ⟨_, hnot⟩ | ⟨hnext, _⟩
    · exact absurd hends hnot
    · exact hnext
  have htakes : (g.sees i (.onTransmissionEnd c)
      ((HubOp.onTransmissionEnd c).run h).1 h).takes = Function.update g.takes c none := if_pos hrec
  have hsaves := saves_finish (h := h) (g := g) (i := i) (c := c)
  refine hp.unlooked hb hok rfl rfl rfl (fun c' y hc' => ?_)
    (fun c' tk htk => Or.inl ⟨?_, by rw [hends']; exact (Option.some_ne_none c').symm⟩)
    (fun c' y hs => ?_) hp.future (fun c' tk htk => ?_) (fun c' e hc' => ?_)
  · rw [htakes]
    rcases hp.begun c' y hc' with ⟨tk, htk, hnow⟩ | hdue
    · have hcc : c' ≠ c := by
        rintro rfl
        have := hended htk
        omega
      rw [Function.update_of_ne hcc]
      exact Or.inl ⟨tk, htk, hnow⟩
    · refine Or.inr ?_
      rcases Stance.next_owes hok rfl ((HubOp.onTransmissionEnd c).run h).1 with
        hsame | ⟨_, hsettled⟩
      · exact hsame.trans hdue
      · cases hsettled c' y hdue
  · rw [htakes] at htk
    by_cases hcc : c' = c
    · rw [hcc, Function.update_self] at htk
      cases htk
    · rw [Function.update_of_ne hcc] at htk
      exact hother hcc htk
  · rcases Stance.next_owes hok rfl ((HubOp.onTransmissionEnd c).run h).1 with hsame | ⟨hnone, _⟩
    · exact hp.starting c' y (hsame.symm.trans hs)
    · rw [hnone] at hs
      cases hs
  · rw [htakes] at htk
    by_cases hcc : c' = c
    · rw [hcc, Function.update_self] at htk
      cases htk
    · rw [Function.update_of_ne hcc] at htk
      rw [hsaves, if_neg fun hp => hcc hp.2.1.symm]
      exact hp.opened c' tk htk
  · rw [htakes] at hc'
    exact hp.closed_finish hk hrec hdisk hc'

/-- A handler starts while none is under way. -/
theorem starts {r : Request} (hp : Paired h g i) (hidle : ∀ j, g.floors.stance j = .fresh) :
    Paired h (g.starts r) r.thread := by
  have hself : (g.floors.starts r).stance r.thread = r.stance := Function.update_self ..
  have howes : r.stance.owes = none :=
    r.stance_rule (P := fun s => s.owes = none) rfl (fun _ => rfl) (fun _ => rfl) fun _ => rfl
  have hends : r.stance.ends = none :=
    r.stance_rule (P := fun s => s.ends = none) rfl (fun _ => rfl) (fun _ => rfl) fun _ => rfl
  have hchannel : r.stance.channel = none :=
    r.stance_rule (P := fun s => s.channel = none) rfl (fun _ => rfl) (fun _ => rfl) fun _ => rfl
  have hquiet : (g.floors.stance i).ends = none := by rw [hidle]; rfl
  refine ⟨fun j hj => ?_, fun c hc => ?_, fun c x hc => ?_, fun c tk htk => ?_,
    fun c x hs => ?_, hp.future, hp.opened, hp.closed⟩
  · exact (Function.update_of_ne hj ..).trans (hidle j)
  · have hc' : r.stance.channel = some c := hself ▸ hc
    rw [hchannel] at hc'
    cases hc'
  · rcases hp.begun c x hc with htk | hdue
    · exact Or.inl htk
    · rw [hidle] at hdue
      cases hdue
  · refine Or.inl ⟨hp.hold_eq hquiet htk, ?_⟩
    show ((g.floors.starts r).stance r.thread).ends ≠ some c
    rw [hself, hends]
    exact (Option.some_ne_none c).symm
  · have hs' : r.stance.owes = some (.start, c, x) := hself ▸ hs
    rw [howes] at hs'
    cases hs'

/-- A change of the hub that no floor takes part in. -/
theorem environment {h' : Hub} (hp : Paired h g i) (hh : ∀ c, h'.holder c = h.holder c) :
    Paired h' g i :=
  { hp with begun := fun c x hc => hp.begun c x ((hh c).symm.trans hc) }

/-- The handler under way makes its next call. -/
theorem call {k : op.Res → HubProg Unit} (hp : Paired h g i)
    (hn : FloorHistory.Named heap h task g.floors) (hk : g.Kept heap h)
    (hi : task i = .call op k) (hrec : h.recording = true) (hdisk : h.diskWritable = true)
    (hkeeps : op.keepsTransmission h = true) :
    Paired (op.run h).2 (g.sees i op (op.run h).1 h) i := by
  have hfollows := hn.sound.follows i
  rw [hi] at hfollows
  obtain ⟨hok, _⟩ := hfollows
  have hb := hn.sound.busyAgrees
  have hcurrent := hn.sound.current
  cases hop : op.looksAt with
  | some c =>
    have hlook := hp.look hb hk hcurrent hok hop hkeeps
    cases op <;> first | exact hlook | cases hop
  | none =>
    cases op with
    | onTransmissionStart c x => exact hp.start hb hrec (Stance.granted_of_start hok) hok
    | appendAudio c payload =>
      obtain ⟨x, hst, _⟩ := Stance.appending_of_append hok
      exact hp.append hb hk hst hok
    | onTransmissionEnd c => exact hp.finish hb hk hrec hdisk hok
    | _ => exact hp.other hb hok hop rfl rfl rfl rfl rfl

end Paired

/-- The invariant of a recording server that runs one handler at a time. -/
structure Serial (heap : Clients) (s : Server RecordingHistory) : Prop where
  attributing : Attributing heap s
  recording : s.hub.recording = true
  writable : s.hub.diskWritable = true
  paired : ∃ i, (∀ j, j ≠ i → s.pool.Idle j) ∧ Paired s.hub s.history i

namespace Serial

variable {heap : Clients} {s t : Server RecordingHistory} {e : ServerEvent}

theorem stance_of_idle (hs : Serial heap s) {j : Thread} (hj : s.pool.Idle j) :
    s.history.floors.stance j = .fresh := by
  have hfollows := hs.attributing.named.sound.follows j
  rw [hj] at hfollows
  exact hfollows

/-- Only the handler under way makes calls. -/
theorem startsInTurn (hs : Serial heap s) : StartsInTurn s e := by
  intro i' c x k _ htask j d y hj howes
  obtain ⟨i, hidle, hp⟩ := hs.paired
  have hi : i' = i := by
    by_contra hne
    exact Interleaving.Pool.not_idle_of_call htask (hidle i' hne)
  rw [hp.others j fun hji => hj (hji.trans hi.symm)] at howes
  cases howes

theorem step (hs : Serial heap s) (he : e.renames = false) (hone : OneAtATime s e)
    (hkept : TransmissionsKept s e) (h : serverStep recordingObserver s e = some t) :
    Serial heap t := by
  have hattr := hs.attributing.step he hs.startsInTurn h
  obtain ⟨i, hidle, hp⟩ := hs.paired
  cases e with
  | serve r =>
    obtain ⟨_, _, _, _, _, hothers⟩ := serverStep_serve h
    obtain ⟨hhub, hstarts⟩ := serverStep_starts h
    have hhist : t.history = s.history.starts r := hstarts
    refine ⟨hattr, hhub ▸ hs.recording, hhub ▸ hs.writable, r.thread, fun j hj => ?_, ?_⟩
    · exact (hothers j hj).trans (hone r rfl j)
    · rw [hhub, hhist]
      exact hp.starts fun j => hs.stance_of_idle (hone r rfl j)
  -- the call is one of the handler under way
  | advance i' =>
    obtain ⟨op, k, hk, _, hhub, hhist, _, hothers⟩ := serverStep_advance h
    obtain rfl : i' = i := by
      by_contra hne
      exact Interleaving.Pool.not_idle_of_call hk (hidle i' hne)
    have hkeeps := hkept i' rfl rfl op (by rw [hk]; rfl)
    obtain ⟨hrec, hdisk⟩ := HubOp.switches_run (h := s.hub) op
    refine ⟨hattr, ?_, ?_, i', fun j hj => (hothers j hj).trans (hidle j hj), ?_⟩
    · rw [hhub, hrec]
      exact hs.recording
    · rw [hhub, hdisk]
      exact hs.writable
    · rw [hhub, hhist]
      exact hp.call hs.attributing.named hs.attributing.kept hk hs.recording hs.writable hkeeps
  | timerFires ch timer =>
    obtain ⟨hf, _, hhist, htask⟩ := serverStep_timerFires h
    have hholder := Hub.fireTimer_holder hf
    obtain ⟨_, _, _, _, heq⟩ := Hub.fireTimer_eq hf
    refine ⟨hattr, ?_, ?_, i, fun j hj => ?_, ?_⟩
    · rw [heq]
      exact hs.recording
    · rw [heq]
      exact hs.writable
    · rw [Interleaving.Pool.Idle, htask]
      exact hidle j hj
    · rw [hhist]
      exact hp.environment hholder
  | tick d =>
    obtain ⟨hhub, _, hhist, htask⟩ := serverStep_tick h
    refine ⟨hattr, ?_, ?_, i, fun j hj => ?_, ?_⟩
    · rw [hhub]
      exact hs.recording
    · rw [hhub]
      exact hs.writable
    · rw [Interleaving.Pool.Idle, htask]
      exact hidle j hj
    · rw [hhist, hhub]
      exact hp.environment fun _ => rfl

theorem init (cfg : Config) (storageDir : String) (maxHistory : ℕ) (files : String → Option Bytes)
    (roipRelay : Bool) (heap : Clients) (now : ℤ) :
    Serial heap (Server.init (newHub cfg (some (newAudioRecorder storageDir maxHistory true
      { files := files })) roipRelay heap now) RecordingHistory.init) where
  attributing := Attributing.init ..
  recording := rfl
  writable := rfl
  paired := by
    refine ⟨.roip, fun j _ => rfl, fun j _ => rfl, fun c hc => ?_, fun c x hc => ?_,
      fun c tk htk => ?_, fun c x hs => ?_, fun c e _ => rfl, fun c tk htk => ?_, fun c e _ => rfl⟩
    · cases hc
    · rw [Server.hub, Server.init, newHub_holder] at hc
      cases hc
    · cases htk
    · cases hs
    · cases htk

/-- Between two handlers nothing is left to do. -/
theorem settled (hs : Serial heap s) (hidle : ∀ i, s.pool.Idle i) :
    RecorderAgrees s ∧ HoldsRecorded s := by
  obtain ⟨i, _, hp⟩ := hs.paired
  have hfresh := hs.stance_of_idle (hidle i)
  have hends : (s.history.floors.stance i).ends = none := by rw [hfresh]; rfl
  have hcurrent := hs.attributing.named.sound.current
  refine ⟨fun c => ?_, fun c e he hlong => ?_⟩
  · rcases hs.attributing.kept.takes c with ⟨htx, htk⟩ | ⟨tx, tk, htx, htk, hexp⟩
    · have hfree : s.hub.holder c = none := by
        by_contra hheld
        obtain ⟨x, hx⟩ := Option.ne_none_iff_exists'.mp hheld
        rcases hp.begun c x hx with ⟨tk, htk', _⟩ | hdue
        · rw [htk] at htk'
          cases htk'
        · rw [hfresh] at hdue
          cases hdue
      refine ⟨⟨fun _ => hfree, fun _ => htx⟩, fun tx x htx' _ => ?_⟩
      rw [htx] at htx'
      cases htx'
    · have hheld : s.hub.holder c = some tk.speaker := by
        rw [← hcurrent, ← hp.hold_eq hends htk]
        exact hexp.holder
      rw [htx, hheld]
      refine ⟨⟨fun hno => ?_, fun hno => ?_⟩, fun tx' x htx' hx => ?_⟩
      · cases hno
      · cases hno
      · obtain rfl := Option.some.inj htx'
        obtain rfl := Option.some.inj hx
        rw [hexp.speakerID, (hs.attributing.named.names tk.speaker).1]
  · have hover : ∀ tk, s.history.takes c = some tk → tk.hold ≠ e := fun tk htk => by
      rw [hp.hold_eq hends htk]
      exact Nat.ne_of_gt he
    rw [hp.closed c e hover, if_pos hlong]

end Serial

/-- In a run that serves one handler at a time, whose holds all end and begin with their
transmissions, the recorder and the floors agree between handlers and every hold is recorded. -/
theorem recorder_agrees (cfg : Config) (storageDir : String) (maxHistory : ℕ)
    (files : String → Option Bytes) (roipRelay : Bool) (heap : Clients) (now : ℤ)
    {es : List ServerEvent} {s : Server RecordingHistory}
    (hrun : Run (serverStep recordingObserver) (Server.init
      (newHub cfg (some (newAudioRecorder storageDir maxHistory true { files := files })) roipRelay
        heap now) RecordingHistory.init) es s)
    (hnames : ∀ e ∈ es, e.renames = false)
    (hserial : Guarded (serverStep recordingObserver) OneAtATime (Server.init
      (newHub cfg (some (newAudioRecorder storageDir maxHistory true { files := files })) roipRelay
        heap now) RecordingHistory.init) es)
    (hkept : Guarded (serverStep recordingObserver) TransmissionsKept (Server.init
      (newHub cfg (some (newAudioRecorder storageDir maxHistory true { files := files })) roipRelay
        heap now) RecordingHistory.init) es)
    (hidle : ∀ i, s.pool.Idle i) : RecorderAgrees s ∧ HoldsRecorded s := by
  have hinv := hrun.invariant_of_guarded (I := Serial heap)
    (fun s e t hs hg h => hs.step hg.1.1 hg.1.2 hg.2 h) ((hserial.and_forall hnames).and hkept)
    (Serial.init cfg storageDir maxHistory files roipRelay heap now)
  exact hinv.settled hidle

/-- A thread with no other beside it serves one handler at a time. -/
theorem oneAtATime_of_alone {γ : Type} {o : Observer γ} {i : Thread} {es : List ServerEvent}
    {s : Server γ} (hes : ∀ e ∈ es, e.thread = some i) (hs : ∀ j, j ≠ i → s.pool.Idle j) :
    Guarded (serverStep o) OneAtATime s es := by
  induction es generalizing s with
  | nil => trivial
  | cons e es ih =>
    intro t h
    have he := hes e List.mem_cons_self
    refine ⟨fun r hr j => ?_, ih (fun e' he' => hes e' (List.mem_cons_of_mem e he')) fun j hj => ?_⟩
    · subst hr
      by_cases hj : j = i
      · obtain ⟨_, hidle, _⟩ := serverStep_serve h
        rw [hj, ← Option.some.inj he]
        exact hidle
      · exact hs j hj
    · exact (serverStep_task h fun heq => hj (Option.some.inj (heq.symm.trans he))).trans (hs j hj)

/-- Unit 0 speaks for 100 ms and its connection ends. -/
def brokenOff : List ServerEvent :=
  uninterrupted (.connect 0 0) 10 ++ uninterrupted (.signal 0 .pttDown {}) 8 ++
    uninterrupted (silence 0) 7 ++ uninterrupted (.disconnect 0) 11

/-- Unit 0 speaks for 100 ms and asks for the floor it holds before it releases it. -/
def keyedTwice : List ServerEvent :=
  uninterrupted (.connect 0 0) 10 ++ uninterrupted (.signal 0 .pttDown {}) 8 ++
    uninterrupted (silence 0) 7 ++ uninterrupted (.signal 0 .pttDown {}) 8 ++
    uninterrupted (.signal 0 .pttUp {}) 7

/-- A disconnect leaves the transmission of a free floor, and a second grant throws away what was
buffered. -/
theorem recorder_agrees_fails :
    (∃ s, Run (serverStep recordingObserver) recordingServer brokenOff s ∧
      Guarded (serverStep recordingObserver) OneAtATime recordingServer brokenOff ∧
      (∀ e ∈ brokenOff, e.renames = false) ∧ (∀ i, s.pool.Idle i) ∧
      ¬ RecorderAgrees s ∧ ¬ HoldsRecorded s) ∧
    ∃ s, Run (serverStep recordingObserver) recordingServer keyedTwice s ∧
      Guarded (serverStep recordingObserver) OneAtATime recordingServer keyedTwice ∧
      (∀ e ∈ keyedTwice, e.renames = false) ∧ (∀ i, s.pool.Idle i) ∧ ¬ HoldsRecorded s := by
  have hbroken := run_get (serverStep recordingObserver) recordingServer brokenOff
    (by decide +kernel)
  have hkeyed := run_get (serverStep recordingObserver) recordingServer keyedTwice
    (by decide +kernel)
  have hbroken' := idle_of_members [.client 0] hbroken (by decide) (fun _ _ => rfl)
    (by decide +kernel)
  have hkeyed' := idle_of_members [.client 0] hkeyed (by decide) (fun _ _ => rfl)
    (by decide +kernel)
  refine ⟨⟨_, hbroken, oneAtATime_of_alone (i := .client 0) (by decide) fun _ _ => rfl, by decide,
    hbroken', fun h => ?_, fun h => ?_⟩,
    _, hkeyed, oneAtATime_of_alone (i := .client 0) (by decide) fun _ _ => rfl, by decide,
    hkeyed', fun h => ?_⟩
  · have hnone := (h 1).1.mpr (by decide +kernel)
    exact absurd (congrArg Option.isNone hnone) (by decide +kernel)
  · exact absurd (h 1 1 (by decide +kernel) (by decide +kernel)) (by decide +kernel)
  · exact absurd (h 1 1 (by decide +kernel) (by decide +kernel)) (by decide +kernel)

theorem recorder_agrees_shortTalk :
    ∃ s, Run (serverStep recordingObserver) recordingServer shortTalk s ∧
      s.history.saves 1 1 = 1 ∧ RecorderAgrees s ∧ HoldsRecorded s := by
  have hrun := run_get (serverStep recordingObserver) recordingServer shortTalk
    (by decide +kernel)
  have hidle := idle_of_members [.client 0] hrun (by decide) (fun _ _ => rfl) (by decide +kernel)
  refine ⟨_, hrun, by decide +kernel, ?_⟩
  exact recorder_agrees defaultConfig "recordings" 100 (fun _ => none) false sampleClients 0 hrun
    (by decide) (oneAtATime_of_alone (i := .client 0) (by decide) fun _ _ => rfl)
    (by decide +kernel) hidle

end TwoWayRadio

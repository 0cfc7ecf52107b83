import TwoWayRadio.HubDeliveries

/-! Handlers that run without interruption: what they send, in order, and what they leave alone. -/
namespace TwoWayRadio
open Interleaving

/-- What a call delivers. -/
def HubOp.sends : HubOp → Hub → List Delivery
  | broadcastAll msg, h => h.clients.keys.map fun y => .enqueue y .send (.json msg h.unixMilli)
  | broadcastSignal ch msg, h =>
    (h.subscribersOf ch).map fun y => .enqueue y .send (.json msg h.unixMilli)
  | sendJSON y msg, h => [.enqueue y .send (.json msg h.unixMilli)]
  | sendPriorityJSON y msg, h => [.enqueue y .highPri (.json msg h.unixMilli)]
  | broadcastAudio ch sender data, h =>
    ((h.subscribersOf ch).filter (some · ≠ sender)).map fun y => .enqueue y .send (.binary data)
  | allCallAudio sender data, h =>
    (h.channels.entries.flatMap fun e => e.2.subscribers.keys.filter (· ≠ sender)).map fun y =>
      .enqueue y .send (.binary data)
  | relay ch data, _ => [.relay ch data]
  | _, _ => []

theorem HubOp.outbox_sends (op : HubOp) (h : Hub) :
    (op.run h).2.outbox = h.outbox ++ op.sends h := by
  have hnone : ∀ {h' : Hub}, h'.outbox = h.outbox → h'.outbox = h.outbox ++ [] := by
    intro h' heq
    rw [heq, List.append_nil]
  cases op with
  | register x first =>
    refine hnone ?_
    show (h.register x first).2.outbox = h.outbox
    rw [Hub.register_eq]
  | endVideo x =>
    refine hnone ?_
    simp only [run]
    split_ifs <;> rfl
  | addSubscriber ch x => exact hnone (Hub.onChannel_outbox ..)
  | removeSubscriber ch x => exact hnone (Hub.onChannel_outbox ..)
  | requestFloor ch x => exact hnone (Hub.onChannel_outbox ..)
  | releaseFloor ch x => exact hnone (Hub.onChannel_outbox ..)
  | handleTOT ch timer => exact hnone (Hub.onChannel_outbox ..)
  | onTransmissionStart ch x => exact hnone (Hub.onRecorder_outbox ..)
  | appendAudio ch payload => exact hnone (Hub.onRecorder_outbox ..)
  | onTransmissionEnd ch => exact hnone (Hub.onRecorder_outbox ..)
  | broadcastAll msg => rfl
  | broadcastSignal ch msg => rfl
  | sendJSON x msg => rfl
  | sendPriorityJSON x msg => rfl
  | broadcastAudio ch sender data => rfl
  | allCallAudio sender data => rfl
  | relay ch data => rfl
  | _ => exact hnone rfl

/-- A frame of text that a call delivers carries its message to one of its receivers. -/
theorem HubOp.message_of_sends {op : HubOp} {h : Hub} {y : ClientRef} {queue : QueueKind}
    {msg : Signal} {now : ℤ} (hd : Delivery.enqueue y queue (.json msg now) ∈ op.sends h) :
    op.message = some msg ∧ y ∈ op.receivers h := by
  cases op with
  | broadcastAll m =>
    obtain ⟨z, hz, heq⟩ := List.mem_map.mp hd
    cases heq
    exact ⟨rfl, hz⟩
  | broadcastSignal ch m =>
    obtain ⟨z, hz, heq⟩ := List.mem_map.mp hd
    cases heq
    exact ⟨rfl, hz⟩
  | sendJSON z m =>
    cases List.mem_singleton.mp hd
    exact ⟨rfl, List.mem_singleton_self _⟩
  | sendPriorityJSON z m =>
    cases List.mem_singleton.mp hd
    exact ⟨rfl, List.mem_singleton_self _⟩
  | broadcastAudio ch sender data =>
    obtain ⟨z, _, heq⟩ := List.mem_map.mp hd
    cases heq
  | allCallAudio sender data =>
    obtain ⟨z, _, heq⟩ := List.mem_map.mp hd
    cases heq
  | relay ch data => cases List.mem_singleton.mp hd
  | _ => cases hd

/-- The two calls that deliver audio to clients. -/
theorem HubOp.binary_of_sends {op : HubOp} {h : Hub} {y : ClientRef} {queue : QueueKind}
    {bytes : Bytes} (hd : Delivery.enqueue y queue (.binary bytes) ∈ op.sends h) :
    (∃ ch sender, op = .broadcastAudio ch sender bytes) ∨
      ∃ sender, op = .allCallAudio sender bytes := by
  cases op with
  | broadcastAudio ch sender data =>
    obtain ⟨z, _, heq⟩ := List.mem_map.mp hd
    obtain rfl := Frame.binary.inj (Delivery.enqueue.inj heq).2.2
    exact Or.inl ⟨ch, sender, rfl⟩
  | allCallAudio sender data =>
    obtain ⟨z, _, heq⟩ := List.mem_map.mp hd
    obtain rfl := Frame.binary.inj (Delivery.enqueue.inj heq).2.2
    exact Or.inr ⟨sender, rfl⟩
  | broadcastAll msg =>
    obtain ⟨z, _, heq⟩ := List.mem_map.mp hd
    cases heq
  | broadcastSignal ch msg =>
    obtain ⟨z, _, heq⟩ := List.mem_map.mp hd
    cases heq
  | sendJSON z msg => cases List.mem_singleton.mp hd
  | sendPriorityJSON z msg => cases List.mem_singleton.mp hd
  | relay ch data => cases List.mem_singleton.mp hd
  | _ => cases hd

theorem HubOp.relay_of_sends {op : HubOp} {h : Hub} {ch : ChannelID} {data : Bytes}
    (hd : Delivery.relay ch data ∈ op.sends h) : op = .relay ch data := by
  cases op with
  | relay ch' data' =>
    obtain ⟨rfl, rfl⟩ := Delivery.relay.inj (List.mem_singleton.mp hd)
    rfl
  | broadcastAudio ch' sender data' =>
    obtain ⟨z, _, heq⟩ := List.mem_map.mp hd
    cases heq
  | allCallAudio sender data' =>
    obtain ⟨z, _, heq⟩ := List.mem_map.mp hd
    cases heq
  | broadcastAll msg =>
    obtain ⟨z, _, heq⟩ := List.mem_map.mp hd
    cases heq
  | broadcastSignal ch' msg =>
    obtain ⟨z, _, heq⟩ := List.mem_map.mp hd
    cases heq
  | sendJSON z msg => cases List.mem_singleton.mp hd
  | sendPriorityJSON z msg => cases List.mem_singleton.mp hd
  | _ => cases hd

/-- The frames enqueued to `y`, oldest first. -/
def framesTo (y : ClientRef) (sent : List Delivery) : List Frame :=
  sent.filterMap fun
    | .enqueue y' _ frame => if y' = y then some frame else none
    | .relay .. => none

theorem framesTo_append (y : ClientRef) (l₁ l₂ : List Delivery) :
    framesTo y (l₁ ++ l₂) = framesTo y l₁ ++ framesTo y l₂ :=
  List.filterMap_append

theorem framesTo_map (y : ClientRef) (queue : QueueKind) (f : Frame) (zs : List ClientRef) :
    framesTo y (zs.map fun z => .enqueue z queue f) = List.replicate (zs.count y) f := by
  induction zs with
  | nil => rfl
  | cons z rest ih =>
    rw [List.map_cons, List.count_cons]
    unfold framesTo at ih ⊢
    rw [List.filterMap_cons]
    by_cases hz : z = y
    · simp [hz, ih, List.replicate_succ]
    · simp [hz, ih]

theorem mem_framesTo {f : Frame} {sent : List Delivery} :
    f ∈ framesTo y sent ↔ ∃ queue, .enqueue y queue f ∈ sent := by
  unfold framesTo
  rw [List.mem_filterMap]
  constructor
  · rintro ⟨d, hd, heq⟩
    cases d with
    | relay ch data => cases heq
    | enqueue y' queue frame =>
      dsimp only at heq
      split_ifs at heq with hy
      cases heq
      exact ⟨queue, hy ▸ hd⟩
  · rintro ⟨queue, hd⟩
    exact ⟨_, hd, if_pos rfl⟩

namespace Hub

theorem mem_subscribersOf {ch : ChannelID} {y : ClientRef} {h : Hub} :
    y ∈ h.subscribersOf ch ↔ h.Subscribed ch y := by
  rw [subscribersOf, readChannel, Subscribed]
  cases h.channels.lookup ch with
  | none => simp
  | some c => simp [AList.mem_keys]

theorem nodup_subscribersOf (ch : ChannelID) (h : Hub) : (h.subscribersOf ch).Nodup := by
  unfold subscribersOf readChannel
  split
  · exact List.nodup_nil
  · exact AList.keys_nodup _

variable {α β : Type}

/-- The hub after an uninterrupted handler. -/
def after (p : HubProg α) (h : Hub) : Hub := (p.exec HubOp.run h).2

/-- What an uninterrupted handler delivers, oldest first. -/
def sent : HubProg α → Hub → List Delivery
  | .ret _, _ => []
  | .call op k, h => op.sends h ++ sent (k (op.run h).1) (op.run h).2

@[simp] theorem after_ret (a : α) (h : Hub) : after (.ret a) h = h := rfl

@[simp] theorem sent_ret (a : α) (h : Hub) : sent (.ret a) h = [] := rfl

@[simp] theorem after_call (op : HubOp) (k : op.Res → HubProg α) (h : Hub) :
    after (.call op k) h = after (k (op.run h).1) (op.run h).2 := rfl

@[simp] theorem sent_call (op : HubOp) (k : op.Res → HubProg α) (h : Hub) :
    sent (.call op k) h = op.sends h ++ sent (k (op.run h).1) (op.run h).2 := rfl

theorem sent_when (c : Prop) [Decidable c] (p : HubProg Unit) (h : Hub) :
    sent (Prog.when c p) h = if c then sent p h else [] := by
  unfold Prog.when
  split_ifs <;> rfl

theorem after_when (c : Prop) [Decidable c] (p : HubProg Unit) (h : Hub) :
    after (Prog.when c p) h = if c then after p h else h := by
  unfold Prog.when
  split_ifs <;> rfl

theorem outbox_after (p : HubProg α) (h : Hub) : (after p h).outbox = h.outbox ++ sent p h := by
  induction p generalizing h with
  | ret a => exact (List.append_nil h.outbox).symm
  | call op k ih =>
    rw [after_call, ih, HubOp.outbox_sends, List.append_assoc]
    rfl

theorem after_bind (p : HubProg α) (f : α → HubProg β) (h : Hub) :
    after (p >>= f) h = after (f (p.exec HubOp.run h).1) (after p h) := by
  rw [after, Prog.exec_bind]
  rfl

theorem sent_bind (p : HubProg α) (f : α → HubProg β) (h : Hub) :
    sent (p >>= f) h = sent p h ++ sent (f (p.exec HubOp.run h).1) (after p h) := by
  induction p generalizing h with
  | ret a => rfl
  | call op k ih =>
    rw [Prog.call_bind, sent_call, sent_call, ih, List.append_assoc]
    rfl

theorem mem_sent_bind {p : HubProg α} {f : α → HubProg β} {h : Hub} {d : Delivery} :
    d ∈ sent (p >>= f) h ↔ d ∈ sent p h ∨ d ∈ sent (f (p.exec HubOp.run h).1) (after p h) := by
  rw [sent_bind, List.mem_append]

/-- What every call keeps is kept by the whole handler. -/
theorem after_of_all {P : HubOp → Prop} {I : Hub → Prop} {p : HubProg α} {h : Hub}
    (hstep : ∀ op h, P op → I h → I (op.run h).2) (hp : p.All P) (hI : I h) : I (after p h) := by
  induction p generalizing h with
  | ret a => exact hI
  | call op k ih => exact ih _ (hp.2 _) (hstep op h hp.1 hI)

theorem after_busyAgrees {α : Type} {p : HubProg α} {h : Hub} (hb : h.BusyAgrees) :
    (after p h).BusyAgrees :=
  after_of_all (P := fun _ => True) (fun op _ _ hb => HubOp.busyAgrees_run hb op)
    (Prog.all_of_forall (fun _ => trivial) p) hb

/-- What holds of everything that each call sends holds of everything that is sent. -/
theorem sent_of_all {P : HubOp → Prop} {D : Delivery → Prop} {p : HubProg α} {h : Hub}
    (hop : ∀ op h, P op → ∀ d ∈ op.sends h, D d) (hp : p.All P) : ∀ d ∈ sent p h, D d := by
  induction p generalizing h with
  | ret a => exact fun d hd => (List.not_mem_nil hd).elim
  | call op k ih =>
    intro d hd
    rcases List.mem_append.mp hd with hd | hd
    · exact hop op h hp.1 d hd
    · exact ih _ (hp.2 _) d hd

/-- A handler of one client leaves the others where they are. -/
theorem elsewhere_after {x : ClientRef} {p : HubProg α} (hp : p.All fun op => op.touched ≠ some x)
    (h : Hub) : Elsewhere x h (after p h) :=
  after_of_all (I := fun h' => Elsewhere x h h')
    (fun _ h' hop he => Elsewhere.trans he (elsewhere_run hop h')) hp (Elsewhere.refl x h)

theorem elsewhere_of_untouched {x : ClientRef} {p : HubProg α}
    (hp : p.All fun op => op.touched = none) (h : Hub) : Elsewhere x h (after p h) :=
  elsewhere_after (hp.mono fun _ hop => by rw [hop]; exact (Option.some_ne_none x).symm) h

/-- A switch does nothing, or answers with an error, or leaves the old channel and enters the new
one. -/
theorem after_switchChannel_cases (x : ClientRef) (new : ChannelID) (password : String) (h : Hub) :
    after (switchChannel x new password) h = h ∨
      (∃ text, after (switchChannel x new password) h =
        after (HubOp.sendJSON x (.error text)).call h) ∨
      after (switchChannel x new password) h =
        after (enterChannel x new)
          (after (Prog.ifSome (h.channelOf x) (leaveChannel x (h.heap x))) h) := by
  have hlook : (HubOp.lookupSwitch x new).run h =
      (((h.channels.lookup new).map fun c => c.definition, h.channelOf x), h) := rfl
  have hfields : (HubOp.fields x).run h = (h.heap x, h) := rfl
  simp only [switchChannel, Prog.perform_bind, after_call, hlook]
  cases (h.channels.lookup new).map fun c => c.definition with
  | none => exact Or.inr (Or.inl ⟨_, rfl⟩)
  | some definition =>
    simp only [after_call, hfields]
    split_ifs
    · exact Or.inl rfl
    · exact Or.inr (Or.inl ⟨_, rfl⟩)
    · exact Or.inr (Or.inr (after_bind _ _ h))

end Hub

/-- What a step of a thread delivers is what its call sends. -/
theorem outbox_step {γ : Type} {o : Observer γ} {s t : Server γ} {i : Thread} {op : HubOp}
    {k : op.Res → HubProg Unit} (hk : s.pool.task i = .call op k)
    (h : serverStep o s (.advance i) = some t) :
    t.hub.outbox.drop s.hub.outbox.length = op.sends s.hub := by
  obtain ⟨op', k', hk', _, hhub, _⟩ := serverStep_advance h
  rw [hk] at hk'
  obtain ⟨rfl, _⟩ := Prog.call.inj hk'
  rw [hhub, HubOp.outbox_sends, List.drop_left]

end TwoWayRadio

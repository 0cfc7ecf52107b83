import TwoWayRadio.HubCalls
import TwoWayRadio.ChannelFloor
import Mathlib.Data.Finset.Card
import Mathlib.Data.Finset.Range
import Mathlib.Tactic.Ring

/-! What the hub's calls do to its channels: who is subscribed where, and who holds which floor. -/
namespace TwoWayRadio

namespace Hub

def HasChannel (ch : ChannelID) (h : Hub) : Prop := (h.channels.lookup ch).isSome = true

def Subscribed (ch : ChannelID) (client : ClientRef) (h : Hub) : Prop :=
  ∃ c, h.channels.lookup ch = some c ∧ client ∈ c.subscribers

/-- The holder of a channel's floor. -/
def holder (ch : ChannelID) (h : Hub) : Option ClientRef :=
  (h.channels.lookup ch).bind fun c => c.activeSpeaker

/-- The floor fields of every channel agree. -/
def BusyAgrees (h : Hub) : Prop := ∀ ch c, h.channels.lookup ch = some c → c.BusyAgrees

/-- What a channel is called, and who may enter it. -/
def definitionOf (ch : ChannelID) (h : Hub) : Option ChannelDef :=
  (h.channels.lookup ch).map fun c => c.definition

theorem hasChannel_iff_definition {ch : ChannelID} {h : Hub} :
    h.HasChannel ch ↔ ∃ d, h.definitionOf ch = some d := by
  rw [HasChannel, ← Option.isSome_iff_exists, definitionOf, Option.isSome_map]

theorem Subscribed.hasChannel {ch : ChannelID} {client : ClientRef} {h : Hub}
    (hs : h.Subscribed ch client) : h.HasChannel ch := by
  obtain ⟨c, hc, _⟩ := hs
  rw [HasChannel, hc]
  rfl

theorem hasChannel_iff {ch : ChannelID} {h : Hub} :
    h.HasChannel ch ↔ ∃ c, h.channels.lookup ch = some c :=
  Option.isSome_iff_exists

/-- The critical section of one channel leaves the others alone. -/
theorem lookup_onChannel {α : Type} (ch ch' : ChannelID) (absent : α) (f : Channel → α × Channel)
    (h : Hub) : (h.onChannel ch absent f).2.channels.lookup ch' =
      if ch' = ch then (h.channels.lookup ch).map fun c => (f c).2
      else h.channels.lookup ch' := by
  unfold onChannel
  split
  · rename_i hnone
    split_ifs with heq
    · rw [heq, hnone]
      rfl
    · rfl
  · rename_i c hc
    split_ifs with heq
    · rw [heq, hc]
      exact AList.lookup_insert _
    · exact AList.lookup_insert_ne heq

theorem hasChannel_onChannel {α : Type} {ch : ChannelID} {h : Hub} (hc : h.HasChannel ch)
    (ch' : ChannelID) (absent : α) (f : Channel → α × Channel) :
    (h.onChannel ch' absent f).2.HasChannel ch := by
  obtain ⟨c, hc⟩ := hasChannel_iff.mp hc
  rw [HasChannel, lookup_onChannel]
  split_ifs with heq
  · rw [← heq, hc]
    rfl
  · rw [hc]
    rfl

/-- What does not depend on the channels is as it was after a critical section of one. -/
theorem onChannel_part {α β : Type} {g : Hub → β}
    (hg : ∀ h channels, g { h with channels := channels } = g h) (ch : ChannelID) (absent : α)
    (f : Channel → α × Channel) (h : Hub) : g (h.onChannel ch absent f).2 = g h := by
  unfold onChannel
  split
  · rfl
  · exact hg h _

@[simp] theorem onChannel_clients {α : Type} (ch : ChannelID) (absent : α)
    (f : Channel → α × Channel) (h : Hub) :
    (h.onChannel ch absent f).2.clients = h.clients :=
  onChannel_part (fun _ _ => rfl) ch absent f h

@[simp] theorem onChannel_heap {α : Type} (ch : ChannelID) (absent : α)
    (f : Channel → α × Channel) (h : Hub) :
    (h.onChannel ch absent f).2.heap = h.heap :=
  onChannel_part (fun _ _ => rfl) ch absent f h

@[simp] theorem onChannel_recorder {α : Type} (ch : ChannelID) (absent : α)
    (f : Channel → α × Channel) (h : Hub) :
    (h.onChannel ch absent f).2.recorder = h.recorder :=
  onChannel_part (fun _ _ => rfl) ch absent f h

@[simp] theorem onChannel_outbox {α : Type} (ch : ChannelID) (absent : α)
    (f : Channel → α × Channel) (h : Hub) :
    (h.onChannel ch absent f).2.outbox = h.outbox :=
  onChannel_part (fun _ _ => rfl) ch absent f h

theorem onChannel_fst {α : Type} {ch : ChannelID} {absent : α} {f : Channel → α × Channel}
    {h : Hub} {c : Channel} (hc : h.channels.lookup ch = some c) :
    (h.onChannel ch absent f).1 = (f c).1 := by
  unfold onChannel
  rw [hc]

/-- What does not depend on the recorder is as it was after a critical section of it. -/
theorem onRecorder_part {α β : Type} {g : Hub → β}
    (hg : ∀ h recorder, g { h with recorder := recorder } = g h) (absent : α)
    (f : AudioRecorder → α × AudioRecorder) (h : Hub) :
    g (h.onRecorder absent f).2 = g h := by
  unfold onRecorder
  split
  · rfl
  · exact hg h _

@[simp] theorem onRecorder_channels {α : Type} (absent : α)
    (f : AudioRecorder → α × AudioRecorder) (h : Hub) :
    (h.onRecorder absent f).2.channels = h.channels :=
  onRecorder_part (fun _ _ => rfl) absent f h

@[simp] theorem onRecorder_clients {α : Type} (absent : α)
    (f : AudioRecorder → α × AudioRecorder) (h : Hub) :
    (h.onRecorder absent f).2.clients = h.clients :=
  onRecorder_part (fun _ _ => rfl) absent f h

@[simp] theorem onRecorder_heap {α : Type} (absent : α)
    (f : AudioRecorder → α × AudioRecorder) (h : Hub) :
    (h.onRecorder absent f).2.heap = h.heap :=
  onRecorder_part (fun _ _ => rfl) absent f h

@[simp] theorem onRecorder_outbox {α : Type} (absent : α)
    (f : AudioRecorder → α × AudioRecorder) (h : Hub) :
    (h.onRecorder absent f).2.outbox = h.outbox :=
  onRecorder_part (fun _ _ => rfl) absent f h

theorem register_eq (client : ClientRef) (first : ℕ) (h : Hub) :
    h.register client first = (h.registrationChannel client first, { h with
      clients := h.clients.insert client true,
      clientsByID := Function.update h.clientsByID (h.heap client).id (some client),
      heap := match h.registrationChannel client first with
        | some id => Function.update h.heap client { h.heap client with currentChannelID := id }
        | none => h.heap }) := by
  unfold register
  cases h.registrationChannel client first <;> rfl

/-- The loop over occupied IDs either stops at a free one or has seen every ID it tried
occupied. -/
theorem nextFreeID_spec (channels : ChannelMap) (fuel : ℕ) (id : ChannelID) :
    channels.lookup (nextFreeID channels fuel id) = none ∨
      (nextFreeID channels fuel id = id + fuel ∧ ∀ n < fuel, id + (n : ℤ) ∈ channels) := by
  induction fuel generalizing id with
  | zero => exact Or.inr ⟨by simp [nextFreeID], fun n hn => absurd hn (Nat.not_lt_zero n)⟩
  | succ fuel ih =>
    by_cases hid : (channels.lookup id).isSome = true
    · have hnext : nextFreeID channels (fuel + 1) id = nextFreeID channels fuel (id + 1) :=
        if_pos hid
      rw [hnext]
      rcases ih (id + 1) with hfree | ⟨heq, hall⟩
      · exact Or.inl hfree
      · refine Or.inr ⟨by rw [heq]; push_cast; ring, fun n hn => ?_⟩
        cases n with
        | zero => simpa using AList.lookup_isSome.mp hid
        | succ n =>
          have hmem := hall n (by omega)
          rwa [show id + ((n + 1 : ℕ) : ℤ) = id + 1 + (n : ℤ) by push_cast; ring]
    · have hnext : nextFreeID channels (fuel + 1) id = id := if_neg hid
      rw [hnext]
      exact Or.inl (Option.not_isSome_iff_eq_none.mp hid)

/-- Among one more IDs than there are channels, one is free. -/
theorem newChannelID_fresh (h : Hub) : h.channels.lookup h.newChannelID = none := by
  set m := h.channels.entries.length with hm
  rcases nextFreeID_spec h.channels m (m + 1) with hfree | ⟨heq, hall⟩
  · exact hfree
  · by_contra hsome
    have hlast : (m + 1 : ℤ) + (m : ℤ) ∈ h.channels := by
      rw [← heq]
      exact AList.lookup_isSome.mp (Option.isSome_iff_ne_none.mpr hsome)
    have hsub : (Finset.range (m + 1)).image (fun n : ℕ => (m + 1 : ℤ) + (n : ℤ)) ⊆
        h.channels.keys.toFinset := by
      intro id hid
      obtain ⟨n, hn, rfl⟩ := Finset.mem_image.mp hid
      rw [List.mem_toFinset, ← AList.mem_keys]
      rcases Nat.lt_succ_iff_lt_or_eq.mp (Finset.mem_range.mp hn) with hlt | rfl
      · exact hall n hlt
      · exact hlast
    have hcard := Finset.card_le_card hsub
    rw [Finset.card_image_of_injective _ (fun a b hab => by simpa using hab),
      Finset.card_range] at hcard
    have hkeys : h.channels.keys.toFinset.card ≤ m := by
      refine (List.toFinset_card_le _).trans ?_
      simp [AList.keys, List.keys, hm]
    omega

end Hub

namespace HubOp

/-- The channel whose critical section a call is. -/
def target : HubOp → Option ChannelID
  | addSubscriber ch _ | removeSubscriber ch _ | requestFloor ch _ | releaseFloor ch _
  | handleTOT ch _ => some ch
  | _ => none

def createsChannel : HubOp → Bool
  | createChannel _ => true
  | _ => false

theorem channels_run {op : HubOp} (ht : op.target = none) (hc : op.createsChannel = false)
    (h : Hub) : (op.run h).2.channels = h.channels := by
  cases op with
  | register client first =>
    show (h.register client first).2.channels = h.channels
    rw [Hub.register_eq]
  | endVideo client =>
    simp only [run]
    split_ifs <;> rfl
  | onTransmissionStart ch speaker => exact Hub.onRecorder_channels ..
  | appendAudio ch payload => exact Hub.onRecorder_channels ..
  | onTransmissionEnd ch => exact Hub.onRecorder_channels ..
  | createChannel p => cases hc
  | addSubscriber ch client => cases ht
  | removeSubscriber ch client => cases ht
  | requestFloor ch client => cases ht
  | releaseFloor ch client => cases ht
  | handleTOT ch timer => cases ht
  | _ => rfl

theorem lookup_createChannel (p : CreateChannelPayload) (h : Hub) (ch : ChannelID) :
    ((createChannel p).run h).2.channels.lookup ch =
      if ch = h.newChannelID then
        some (newChannel (Hub.newChannelDef h.newChannelID p) h.config.totDuration)
      else h.channels.lookup ch := by
  split_ifs with heq
  · rw [heq]
    exact AList.lookup_insert _
  · exact AList.lookup_insert_ne heq

/-- Channels are never removed. -/
theorem hasChannel_run (op : HubOp) {h : Hub} {ch : ChannelID} (hc : h.HasChannel ch) :
    (op.run h).2.HasChannel ch := by
  by_cases ht : op.target = none
  · by_cases hcr : op.createsChannel = false
    · rwa [Hub.HasChannel, channels_run ht hcr]
    · cases op with
      | createChannel p =>
        rw [Hub.HasChannel, lookup_createChannel]
        split_ifs
        · rfl
        · exact hc
      | _ => exact absurd rfl hcr
  · cases op with
    | addSubscriber ch' client => exact Hub.hasChannel_onChannel hc ..
    | removeSubscriber ch' client => exact Hub.hasChannel_onChannel hc ..
    | requestFloor ch' client => exact Hub.hasChannel_onChannel hc ..
    | releaseFloor ch' client => exact Hub.hasChannel_onChannel hc ..
    | handleTOT ch' timer => exact Hub.hasChannel_onChannel hc ..
    | _ => exact absurd rfl ht

end HubOp

theorem lookup_foldl_insert {tot : ℤ} (defs : List ChannelDef) (m : ChannelMap)
    {ch : ChannelID} {c : Channel}
    (hc : (defs.foldl (fun m d => m.insert d.id (newChannel d tot)) m).lookup ch = some c) :
    (∃ d ∈ defs, d.id = ch ∧ c = newChannel d tot) ∨ m.lookup ch = some c := by
  induction defs generalizing m with
  | nil => exact Or.inr hc
  | cons d defs ih =>
    rcases ih _ hc with ⟨d', hd', hid, heq⟩ | hm
    · exact Or.inl ⟨d', List.mem_cons_of_mem d hd', hid, heq⟩
    · by_cases heq : ch = d.id
      · rw [heq, AList.lookup_insert] at hm
        exact Or.inl ⟨d, List.mem_cons_self, heq.symm, (Option.some.inj hm).symm⟩
      · rw [AList.lookup_insert_ne heq] at hm
        exact Or.inr hm

theorem mem_foldl_insert {tot : ℤ} (defs : List ChannelDef) (m : ChannelMap) {ch : ChannelID}
    (h : ch ∈ m ∨ ∃ d ∈ defs, d.id = ch) :
    ch ∈ defs.foldl (fun m d => m.insert d.id (newChannel d tot)) m := by
  induction defs generalizing m with
  | nil => simpa using h
  | cons d defs ih =>
    refine ih _ ?_
    rcases h with hm | ⟨d', hd', hid⟩
    · exact Or.inl ((AList.mem_insert m).mpr (Or.inr hm))
    · rcases List.mem_cons.mp hd' with rfl | hd'
      · exact Or.inl ((AList.mem_insert m).mpr (Or.inl hid.symm))
      · exact Or.inr ⟨d', hd', hid⟩

/-- The channels of a new hub are idle and empty. -/
theorem lookup_defaultChannelMap (cfg : Config) {ch : ChannelID} {c : Channel}
    (hc : (defaultChannelMap cfg).lookup ch = some c) :
    ∃ d ∈ cfg.defaultChannels, d.id = ch ∧ c = newChannel d cfg.totDuration := by
  rcases lookup_foldl_insert cfg.defaultChannels ∅ hc with hd | hempty
  · exact hd
  · rw [AList.lookup_empty] at hempty
    cases hempty

end TwoWayRadio

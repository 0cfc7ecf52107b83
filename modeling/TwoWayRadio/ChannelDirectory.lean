import TwoWayRadio.HubEffects
import TwoWayRadio.VoiceChannels
import Mathlib.Data.Int.Interval

/-! Which IDs the hub gives to the channels that its clients create, and which channels its
listing shows. -/
namespace TwoWayRadio
open Interleaving Transition

namespace Hub

/-- Every channel once, by increasing ID. -/
structure Lists (h : Hub) (infos : List ChannelInfo) : Prop where
  increasing : infos.Pairwise fun a b => a.id < b.id
  mem_iff : ∀ info, info ∈ infos ↔ ∃ c chan, h.channels.lookup c = some chan ∧
    info = h.channelInfo chan

/-- The IDs of the channels are those from 1 to their number. -/
def ContiguousIDs (h : Hub) : Prop :=
  ∀ c, h.HasChannel c ↔ 1 ≤ c ∧ c ≤ h.channels.entries.length

/-- A channel is filed under the ID that it says. -/
def Keyed (h : Hub) : Prop := ∀ c d, h.definitionOf c = some d → d.id = c

instance (c : ChannelID) (h : Hub) : Decidable (h.HasChannel c) :=
  inferInstanceAs (Decidable (_ = true))

variable {h : Hub} {c : ChannelID}

/-- The loop, with its counter as a natural number. -/
theorem getChannelList_eq (h : Hub) : h.getChannelList =
    (List.range h.channels.entries.length).filterMap fun n : ℕ =>
      (h.channels.lookup ((n : ℤ) + 1)).map h.channelInfo := by
  have hcast (l : List ℕ) : (l >>= fun n => pure (n : ℤ)) = l.map fun n : ℕ => (n : ℤ) :=
    bind_pure_comp ..
  rw [getChannelList, hcast, List.filterMap_map]
  rfl

theorem mem_getChannelList {info : ChannelInfo} : info ∈ h.getChannelList ↔
    ∃ (c : ℤ) (chan : Channel), 1 ≤ c ∧ c ≤ h.channels.entries.length ∧
      h.channels.lookup c = some chan ∧ info = h.channelInfo chan := by
  rw [getChannelList_eq, List.mem_filterMap]
  constructor
  · rintro ⟨n, hn, hinfo⟩
    obtain ⟨chan, hchan, rfl⟩ := Option.map_eq_some_iff.mp hinfo
    rw [List.mem_range] at hn
    exact ⟨_, chan, by omega, by omega, hchan, rfl⟩
  · rintro ⟨c, chan, hpos, hle, hchan, rfl⟩
    obtain ⟨n, hn⟩ := Int.eq_ofNat_of_zero_le (Int.sub_nonneg_of_le hpos)
    obtain rfl : c = (n : ℤ) + 1 := by omega
    refine ⟨n, List.mem_range.mpr (by omega), ?_⟩
    rw [hchan, Option.map_some]

theorem Keyed.id_channelInfo (hk : h.Keyed) {chan : Channel}
    (hchan : h.channels.lookup c = some chan) : (h.channelInfo chan).id = c :=
  hk c chan.definition (by rw [definitionOf, hchan, Option.map_some])

theorem Keyed.increasing (hk : h.Keyed) : h.getChannelList.Pairwise fun a b => a.id < b.id := by
  rw [Hub.getChannelList_eq]
  have hrange : (List.range h.channels.entries.length).Pairwise fun m n => m < n :=
    List.pairwise_lt_range
  refine hrange.filterMap _ fun m n hmn a ha b hb => ?_
  obtain ⟨chan, hchan, rfl⟩ := Option.map_eq_some_iff.mp ha
  obtain ⟨chan', hchan', rfl⟩ := Option.map_eq_some_iff.mp hb
  rw [hk.id_channelInfo hchan, hk.id_channelInfo hchan']
  exact Int.add_lt_add_right (Int.ofNat_lt.mpr hmn) 1

/-- As many positive IDs as there are numbers up to their count, all of them that low, are all
those numbers. -/
theorem contiguousIDs_iff (hpos : h.PositiveIDs) :
    h.ContiguousIDs ↔ ∀ c, h.HasChannel c → c ≤ h.channels.entries.length := by
  constructor
  · intro hall c hc
    exact ((hall c).mp hc).2
  · intro hle
    have hmem (c : ChannelID) : c ∈ h.channels.keys.toFinset ↔ h.HasChannel c := by
      rw [List.mem_toFinset, ← AList.mem_keys]
      exact AList.lookup_isSome.symm
    have hsub : h.channels.keys.toFinset ⊆ Finset.Icc (1 : ℤ) h.channels.entries.length := by
      intro c hc
      have hhas := (hmem c).mp hc
      exact Finset.mem_Icc.mpr ⟨hpos c hhas, hle c hhas⟩
    have hcard : (Finset.Icc (1 : ℤ) h.channels.entries.length).card ≤
        h.channels.keys.toFinset.card := by
      rw [List.toFinset_card_of_nodup h.channels.keys_nodup, Int.card_Icc, AList.keys, List.keys,
        List.length_map]
      omega
    intro c
    rw [← hmem, Finset.eq_of_subset_of_card_le hsub hcard, Finset.mem_Icc]

/-- The listing is complete exactly when its loop meets every ID. -/
theorem lists_iff (hk : h.Keyed) (hpos : h.PositiveIDs) :
    h.Lists h.getChannelList ↔ h.ContiguousIDs := by
  rw [contiguousIDs_iff hpos]
  constructor
  · intro hl c hc
    obtain ⟨chan, hchan⟩ := hasChannel_iff.mp hc
    have hinfo := (hl.mem_iff _).mpr ⟨c, chan, hchan, rfl⟩
    obtain ⟨c', chan', _, hle, hchan', hsame⟩ := mem_getChannelList.mp hinfo
    have hid := congrArg ChannelInfo.id hsame
    rw [hk.id_channelInfo hchan, hk.id_channelInfo hchan'] at hid
    rw [hid]
    exact hle
  · intro hle
    refine ⟨hk.increasing, fun info => mem_getChannelList.trans ?_⟩
    constructor
    · rintro ⟨c, chan, _, _, hchan, hinfo⟩
      exact ⟨c, chan, hchan, hinfo⟩
    · rintro ⟨c, chan, hchan, hinfo⟩
      have hc := hasChannel_iff.mpr ⟨chan, hchan⟩
      exact ⟨c, chan, hpos c hc, hle c hc, hchan, hinfo⟩

/-- The search ends: it passes over occupied IDs only, and stops at the first free one. -/
theorem nextFreeID_search (channels : ChannelMap) (fuel : ℕ) (id : ℤ) :
    ∃ k : ℕ, nextFreeID channels fuel id = id + k ∧
      ∀ m : ℕ, m < k → (channels.lookup (id + m)).isSome = true := by
  induction fuel generalizing id with
  | zero => exact ⟨0, (add_zero id).symm, fun m hm => absurd hm (Nat.not_lt_zero m)⟩
  | succ fuel ih =>
    unfold nextFreeID
    split_ifs with hid
    · obtain ⟨k, hk, hall⟩ := ih (id + 1)
      refine ⟨k + 1, ?_, fun m hm => ?_⟩
      · rw [hk]
        push_cast
        ring
      · cases m with
        | zero => rwa [Nat.cast_zero, add_zero]
        | succ m =>
          have hm' := hall m (by omega)
          rwa [show id + ((m + 1 : ℕ) : ℤ) = id + 1 + (m : ℤ) by push_cast; ring]
    · exact ⟨0, (add_zero id).symm, fun m hm => absurd hm (Nat.not_lt_zero m)⟩

/-- The first number above `n` that is not in `S` extends the initial segment up to `n` if it is
the next one; otherwise `S` was no initial segment and is none with it. -/
theorem initial_insert_iff {S : ℤ → Prop} {n k : ℕ} (hfree : ¬ S (n + 1 + k))
    (hoccupied : ∀ m : ℕ, m < k → S (n + 1 + m)) :
    (∀ c, S c ∨ c = n + 1 + k ↔ 1 ≤ c ∧ c ≤ (n : ℤ) + 1) ↔ ∀ c, S c ↔ 1 ≤ c ∧ c ≤ (n : ℤ) := by
  constructor
  · intro hall c
    have hk : k = 0 := by
      have hle := ((hall (n + 1 + k)).mp (Or.inr rfl)).2
      omega
    subst hk
    constructor
    · intro hc
      obtain ⟨hpos, hle⟩ := (hall c).mp (Or.inl hc)
      have hne : c ≠ n + 1 + (0 : ℕ) := by
        rintro rfl
        exact hfree hc
      exact ⟨hpos, by omega⟩
    · rintro ⟨hpos, hle⟩
      exact ((hall c).mpr ⟨hpos, by omega⟩).resolve_right (by omega)
  · intro hall c
    have hk : k = 0 := by
      by_contra hk
      have hlow := ((hall (n + 1 + (0 : ℕ))).mp (hoccupied 0 (Nat.pos_of_ne_zero hk))).2
      omega
    subst hk
    rw [hall]
    omega

/-- `createChannel` as the clients see it: one more channel, under the first free ID above the
number of channels, and all others as they were. -/
structure Allocated (p : CreateChannelPayload) (h h' : Hub) : Prop where
  search : ∃ k : ℕ, h.newChannelID = h.channels.entries.length + 1 + k ∧
    ∀ m : ℕ, m < k → h.HasChannel (h.channels.entries.length + 1 + m)
  free : ¬ h.HasChannel h.newChannelID
  added : h'.channels.lookup h.newChannelID =
    some (newChannel (newChannelDef h.newChannelID p) h.config.totDuration)
  others : ∀ c, c ≠ h.newChannelID → h'.channels.lookup c = h.channels.lookup c
  one : h'.channels.entries.length = h.channels.entries.length + 1

theorem allocated_run (p : CreateChannelPayload) (h : Hub) :
    Allocated p h ((HubOp.createChannel p).run h).2 where
  search := nextFreeID_search h.channels _ _
  free := by
    rw [HasChannel, h.newChannelID_fresh]
    exact Bool.false_ne_true
  added := by rw [HubOp.lookup_createChannel, if_pos rfl]
  others := fun c hc => by rw [HubOp.lookup_createChannel, if_neg hc]
  one := length_createChannel p h

/-- The same channels, under the same IDs. -/
structure SameChannels (h h' : Hub) : Prop where
  definition : ∀ c, h'.definitionOf c = h.definitionOf c
  length : h'.channels.entries.length = h.channels.entries.length

section Contiguous

variable {h' : Hub} {p : CreateChannelPayload}

theorem SameChannels.hasChannel_iff (hs : SameChannels h h') :
    h'.HasChannel c ↔ h.HasChannel c := by
  rw [hasChannel_iff_definition, hs.definition, ← hasChannel_iff_definition]

theorem SameChannels.contiguousIDs_iff (hs : SameChannels h h') :
    h'.ContiguousIDs ↔ h.ContiguousIDs := by
  unfold ContiguousIDs
  simp only [hs.hasChannel_iff, hs.length]

theorem Allocated.hasChannel_iff (ha : Allocated p h h') :
    h'.HasChannel c ↔ h.HasChannel c ∨ c = h.newChannelID := by
  by_cases hc : c = h.newChannelID
  · rw [hc, HasChannel, ha.added]
    exact iff_of_true rfl (Or.inr rfl)
  · rw [HasChannel, ha.others c hc, HasChannel]
    exact (or_iff_left hc).symm

/-- A gap in the IDs is never filled, and none opens. -/
theorem Allocated.contiguousIDs_iff (ha : Allocated p h h') :
    h'.ContiguousIDs ↔ h.ContiguousIDs := by
  obtain ⟨k, hnew, hoccupied⟩ := ha.search
  have hfree := ha.free
  rw [hnew] at hfree
  unfold ContiguousIDs
  simp only [ha.hasChannel_iff, ha.one, hnew, Nat.cast_add, Nat.cast_one]
  exact initial_insert_iff hfree hoccupied

end Contiguous

end Hub

/-- What the message asks for, where it is accepted. -/
def Request.creation : Request → Option CreateChannelPayload
  | .signal _ (.createChannel p) _ => if p.ok ∧ p.value.name ≠ "" then some p.value else none
  | _ => none

/-- The handler of an accepted create_channel creates one channel, first of all; the others
create none. -/
def Request.CreatesOnce (r : Request) : Prop :=
  match r.creation with
  | some p => ∃ k, r.prog = .call (.createChannel p) k ∧
      ∀ id, (k id).All fun op => op.createsChannel = false
  | none => r.prog.All fun op => op.createsChannel = false

section Handlers

open Prog

theorem not_creates_of_servedBy {op : HubOp} {r : Request} (hop : op.servedBy r = true)
    (hr : ∀ x p choices, r ≠ .signal x (.createChannel p) choices) : op.createsChannel = false := by
  cases op with
  | createChannel p =>
    simp only [HubOp.servedBy] at hop
    cases hop
  | _ => rfl

theorem createsOnce (r : Request) : r.CreatesOnce := by
  by_cases hr : ∀ x p choices, r ≠ .signal x (.createChannel p) choices
  · have hnone : r.creation = none := by
      unfold Request.creation
      split
      · exact absurd rfl (hr _ _ _)
      · rfl
    rw [Request.CreatesOnce, hnone]
    exact (serves_prog r).mono fun _ hop => not_creates_of_servedBy hop hr
  · simp only [not_forall, not_not] at hr
    obtain ⟨x, p, choices, rfl⟩ := hr
    have hprog : (Request.signal x (.createChannel p) choices).prog = Hub.createSignal x p := rfl
    rw [Request.CreatesOnce, Request.creation, hprog, Hub.createSignal, Prog.when]
    split_ifs with hok
    · refine ⟨_, rfl, fun id => all_then rfl fun _ => all_then rfl fun _ => ?_⟩
      -- moving to the new channel is what join_channel does
      have hmakes := makes_switchChannel
        (r := .signal x (.joinChannel ⟨{ channelID := id }, true⟩) {}) rfl x id p.value.password
      exact hmakes.mono fun _ hop => not_creates_of_servedBy (HubOp.servedBy_of_madeBy hop)
        fun _ _ _ heq => by cases heq
    · trivial

end Handlers

section Steps

variable {γ : Type} {o : Observer γ} {s t : Server γ} {e : ServerEvent} {h : Hub} {c : ChannelID}

theorem sameChannels_run {op : HubOp} (hop : op.createsChannel = false) (h : Hub) :
    Hub.SameChannels h (op.run h).2 where
  definition := by
    intro c
    cases hd : h.definitionOf c with
    | some d => exact definitionOf_run op hd
    | none =>
      by_contra hsome
      obtain ⟨d, hd'⟩ := Option.ne_none_iff_exists'.mp hsome
      rcases HubOp.hasChannel_of_run (Hub.hasChannel_iff_definition.mpr ⟨d, hd'⟩) with
        hold | ⟨hcreates, -⟩
      · obtain ⟨d₀, hd₀⟩ := Hub.hasChannel_iff_definition.mp hold
        rw [hd] at hd₀
        cases hd₀
      · rw [hop] at hcreates
        cases hcreates
  length := Hub.length_run_of_not_creates hop h

/-- Channels come from `createChannel` and from nowhere else. -/
theorem serverStep_channels (h : serverStep o s e = some t) :
    Hub.SameChannels s.hub t.hub ∨ ∃ i p k, e = .advance i ∧
      s.pool.task i = .call (.createChannel p) k ∧ Hub.Allocated p s.hub t.hub := by
  cases e with
  | serve r =>
    rw [(serverStep_starts h).1]
    exact Or.inl ⟨fun _ => rfl, rfl⟩
  | advance i =>
    obtain ⟨op, k, hk, _, hhub, _⟩ := serverStep_advance h
    rw [hhub]
    by_cases hop : op.createsChannel = false
    · exact Or.inl (sameChannels_run hop s.hub)
    · cases op with
      | createChannel p => exact Or.inr ⟨i, p, k, rfl, hk, Hub.allocated_run p s.hub⟩
      | _ => exact absurd rfl hop
  | timerFires ch timer =>
    obtain ⟨chan, chan', hchan, hfire, heq⟩ := Hub.fireTimer_eq (serverStep_timerFires h).1
    obtain ⟨_, _, _, _, rfl⟩ := Channel.fireTimer_eq hfire
    rw [heq]
    refine Or.inl ⟨fun c => ?_, ?_⟩
    · by_cases hc : c = ch
      · rw [hc, Hub.definitionOf, AList.lookup_insert, Hub.definitionOf, hchan]
        rfl
      · rw [Hub.definitionOf, AList.lookup_insert_ne hc, Hub.definitionOf]
    · exact Hub.length_insert_of_mem (AList.lookup_isSome.mp (by rw [hchan]; rfl)) _
  | tick d =>
    rw [(serverStep_tick h).1]
    exact Or.inl ⟨fun _ => rfl, rfl⟩

theorem hasChannel_step (h : serverStep o s e = some t) (hc : s.hub.HasChannel c) :
    t.hub.HasChannel c := by
  rcases serverStep_channels h with hsame | ⟨i, p, k, -, -, ha⟩
  · exact hsame.hasChannel_iff.mpr hc
  · exact ha.hasChannel_iff.mpr (Or.inl hc)

theorem keyed_step (h : serverStep o s e = some t) (hk : s.hub.Keyed) : t.hub.Keyed := by
  intro c d hd
  rcases serverStep_channels h with hsame | ⟨i, p, k, -, -, ha⟩
  · rw [hsame.definition] at hd
    exact hk c d hd
  · by_cases hc : c = s.hub.newChannelID
    · rw [hc, Hub.definitionOf, ha.added] at hd
      obtain rfl := Option.some.inj hd
      exact hc.symm
    · rw [Hub.definitionOf, ha.others c hc] at hd
      exact hk c d hd

theorem contiguousIDs_step (h : serverStep o s e = some t) :
    t.hub.ContiguousIDs ↔ s.hub.ContiguousIDs := by
  rcases serverStep_channels h with hsame | ⟨i, p, k, -, -, ha⟩
  · exact hsame.contiguousIDs_iff
  · exact ha.contiguousIDs_iff

end Steps

/-- The IDs of the default channels are those from 1 to their number. -/
def Config.ContiguousIDs (cfg : Config) : Prop :=
  ∀ c : ℤ, (∃ d ∈ cfg.defaultChannels, d.id = c) ↔ 1 ≤ c ∧ c ≤ (cfg.defaultChannels.length : ℤ)

section Defaults

variable {cfg : Config}

theorem length_foldl_insert {tot : ℤ} (defs : List ChannelDef) (m : ChannelMap)
    (hdistinct : (defs.map ChannelDef.id).Nodup) (hm : ∀ d ∈ defs, d.id ∉ m) :
    (defs.foldl (fun m d => m.insert d.id (newChannel d tot)) m).entries.length =
      m.entries.length + defs.length := by
  induction defs generalizing m with
  | nil => rfl
  | cons d defs ih =>
    obtain ⟨hd, hdistinct⟩ := List.nodup_cons.mp hdistinct
    have hone : (m.insert d.id (newChannel d tot)).entries.length = m.entries.length + 1 := by
      rw [AList.insert_of_notMem (hm d List.mem_cons_self), List.length_cons]
    rw [List.foldl_cons, ih _ hdistinct, hone, List.length_cons]
    · omega
    · intro d' hd' hmem
      rcases (AList.mem_insert m).mp hmem with heq | hmem
      · exact hd (heq ▸ List.mem_map_of_mem hd')
      · exact hm d' (List.mem_cons_of_mem d hd') hmem

theorem newHub_hasChannel_iff (cfg : Config) (recorder : Option AudioRecorder) (roipRelay : Bool)
    (heap : Clients) (now : ℤ) (c : ChannelID) :
    (newHub cfg recorder roipRelay heap now).HasChannel c ↔
      ∃ d ∈ cfg.defaultChannels, d.id = c := by
  constructor
  · intro hc
    obtain ⟨chan, hchan⟩ := Hub.hasChannel_iff.mp hc
    obtain ⟨d, hd, hid, -⟩ := lookup_defaultChannelMap cfg hchan
    exact ⟨d, hd, hid⟩
  · intro hd
    exact AList.lookup_isSome.mpr (mem_foldl_insert _ _ (Or.inr hd))

theorem newHub_contiguousIDs_iff (hdistinct : (cfg.defaultChannels.map ChannelDef.id).Nodup)
    (recorder : Option AudioRecorder) (roipRelay : Bool) (heap : Clients) (now : ℤ) :
    (newHub cfg recorder roipRelay heap now).ContiguousIDs ↔ cfg.ContiguousIDs := by
  have hlength : (newHub cfg recorder roipRelay heap now).channels.entries.length =
      cfg.defaultChannels.length :=
    (length_foldl_insert _ ∅ hdistinct fun d _ => AList.notMem_empty d.id).trans (Nat.zero_add _)
  unfold Hub.ContiguousIDs Config.ContiguousIDs
  simp only [newHub_hasChannel_iff, hlength]

theorem newHub_keyed (cfg : Config) (recorder : Option AudioRecorder) (roipRelay : Bool)
    (heap : Clients) (now : ℤ) : (newHub cfg recorder roipRelay heap now).Keyed := by
  intro c d hd
  obtain ⟨chan, hchan, rfl⟩ := Option.map_eq_some_iff.mp hd
  obtain ⟨d', -, hid, rfl⟩ := lookup_defaultChannelMap cfg hchan
  exact hid

end Defaults

/-- In every run from default channels with distinct positive IDs: a create_channel creates one
channel, under an ID that was never used; and the listing is complete exactly when the default
IDs leave no gap. -/
theorem channel_directory {cfg : Config} (hdistinct : (cfg.defaultChannels.map ChannelDef.id).Nodup)
    (hpositive : ∀ d ∈ cfg.defaultChannels, 0 < d.id) (recorder : Option AudioRecorder)
    (roipRelay : Bool) (heap : Clients) (now : ℤ) {es : List ServerEvent} {s : Server Unit}
    (hrun : Run (serverStep noObserver)
      (Server.init (newHub cfg recorder roipRelay heap now) ()) es s) :
    (∀ r : Request, r.CreatesOnce) ∧
      (∀ e t, serverStep noObserver s e = some t →
        Hub.SameChannels s.hub t.hub ∨ ∃ i p k, e = .advance i ∧
          s.pool.task i = .call (.createChannel p) k ∧ Hub.Allocated p s.hub t.hub) ∧
      (∀ pre post s₀, es = pre ++ post →
        Run (serverStep noObserver)
          (Server.init (newHub cfg recorder roipRelay heap now) ()) pre s₀ →
        Run (serverStep noObserver) s₀ post s → ¬ s₀.hub.HasChannel s.hub.newChannelID) ∧
      (s.hub.Lists s.hub.getChannelList ↔ cfg.ContiguousIDs) := by
  refine ⟨createsOnce, fun e t => serverStep_channels, fun pre post s₀ _ _ hpost hused => ?_, ?_⟩
  · have hstill : s.hub.HasChannel s.hub.newChannelID :=
      hpost.invariant (I := fun s' => s'.hub.HasChannel s.hub.newChannelID)
        (fun _ _ _ hc h => hasChannel_step h hc) hused
    rw [Hub.HasChannel, Hub.newChannelID_fresh] at hstill
    cases hstill
  · have hkeyed : s.hub.Keyed := hrun.invariant (I := fun s => s.hub.Keyed)
      (fun _ _ _ hk h => keyed_step h hk) (newHub_keyed cfg recorder roipRelay heap now)
    have hpos : s.hub.PositiveIDs := by
      refine hrun.invariant (I := fun s => s.hub.PositiveIDs) (fun _ _ _ => positiveIDs_step) ?_
      intro c hc
      obtain ⟨d, hd, rfl⟩ := (newHub_hasChannel_iff ..).mp hc
      exact hpositive d hd
    have hcontiguous : s.hub.ContiguousIDs ↔ cfg.ContiguousIDs :=
      hrun.invariant (I := fun s => s.hub.ContiguousIDs ↔ cfg.ContiguousIDs)
        (fun _ _ _ hs h => (contiguousIDs_step h).trans hs)
        (newHub_contiguousIDs_iff hdistinct recorder roipRelay heap now)
    exact (Hub.lists_iff hkeyed hpos).trans hcontiguous

theorem contiguousIDs_defaultConfig : defaultConfig.ContiguousIDs := by
  intro c
  simp [defaultConfig]
  omega

/-- Unit 0 opens a channel. -/
def openingRun : List ServerEvent :=
  uninterrupted (.connect 0 0) 10 ++
    uninterrupted (.signal 0 (.createChannel Hub.openChannel) {}) 8

theorem channel_directory_default :
    ∃ s, Run (serverStep noObserver)
        (Server.init (newHub defaultConfig none false sampleClients 0) ()) openingRun s ∧
      s.hub.HasChannel 9 ∧ s.hub.Lists s.hub.getChannelList := by
  have hrun := run_get (serverStep noObserver)
    (Server.init (newHub defaultConfig none false sampleClients 0) ()) openingRun
    (by decide +kernel)
  refine ⟨_, hrun, by decide +kernel, ?_⟩
  exact (channel_directory (by decide) (by decide) none false sampleClients 0 hrun).2.2.2.mpr
    contiguousIDs_defaultConfig

/-- Two default channels with a gap between their IDs. -/
def gapConfig : Config where
  totDuration := 60 * second
  defaultChannels := [{ id := 1, name := "CENTRAL" }, { id := 3, name := "SOUTH" }]

/-- The channel that unit 0 opens is number 4 of the three, and the listing ends with number 3. -/
theorem channel_directory_fails :
    (gapConfig.defaultChannels.map ChannelDef.id).Nodup ∧
      (∀ d ∈ gapConfig.defaultChannels, 0 < d.id) ∧
      ∃ s, Run (serverStep noObserver)
          (Server.init (newHub gapConfig none false sampleClients 0) ()) openingRun s ∧
        s.hub.HasChannel 4 ∧ ¬ s.hub.Lists s.hub.getChannelList := by
  have hrun := run_get (serverStep noObserver)
    (Server.init (newHub gapConfig none false sampleClients 0) ()) openingRun (by decide +kernel)
  refine ⟨by decide, by decide, _, hrun, by decide +kernel, fun hl => ?_⟩
  have hlisted : ((openingRun.foldlM (serverStep noObserver)
      (Server.init (newHub gapConfig none false sampleClients 0) ())).get
      (by decide +kernel)).hub.getChannelList.map ChannelInfo.id = [1, 3] := by decide +kernel
  have hdefined : (((openingRun.foldlM (serverStep noObserver)
      (Server.init (newHub gapConfig none false sampleClients 0) ())).get
      (by decide +kernel)).hub.definitionOf 4).map ChannelDef.id = some 4 := by decide +kernel
  obtain ⟨d, hd, hid⟩ := Option.map_eq_some_iff.mp hdefined
  obtain ⟨chan, hchan, rfl⟩ := Option.map_eq_some_iff.mp hd
  have hmem := List.mem_map_of_mem (f := ChannelInfo.id) ((hl.mem_iff _).mpr ⟨4, chan, hchan, rfl⟩)
  rw [hlisted] at hmem
  have hfour : (4 : ℤ) ∈ [1, 3] := hid ▸ hmem
  exact absurd hfour (by decide)

end TwoWayRadio

import TwoWayRadio.AudioFormat
import TwoWayRadio.RecordingPaths
import TwoWayRadio.RoIPServer

/-! Who becomes a peer of the RoIP server, and which datagrams reach the hub. -/
namespace TwoWayRadio
open Interleaving Transition

/-- The port is what stands behind the last colon. -/
theorem UDPAddr.string_injective {a b : UDPAddr} (h : a.string = b.string) : a = b := by
  have hlist (a : UDPAddr) :
      a.string.toList.reverse = (Nat.toDigits 10 a.port).reverse ++ ':' :: a.ip.toList.reverse := by
    simp [UDPAddr.string, String.toList_append]
  have hcolon (n : ℕ) : ':' ∉ (Nat.toDigits 10 n).reverse := fun hmem =>
    absurd (Nat.isDigit_of_mem_toDigits (by decide) (by decide) (List.mem_reverse.mp hmem))
      (by decide)
  have heq : a.string.toList.reverse = b.string.toList.reverse := by rw [h]
  rw [hlist, hlist] at heq
  obtain ⟨hdigits, hip⟩ := eq_of_append_cons_eq (hcolon _) (hcolon _) heq
  have hport : a.port = b.port := by
    rw [← Nat.ofDigitChars_ten_toDigits (n := a.port), List.reverse_injective hdigits,
      Nat.ofDigitChars_ten_toDigits]
  obtain ⟨ip, port⟩ := a
  obtain ⟨ip', port'⟩ := b
  exact congr (congrArg UDPAddr.mk (String.toList_injective (List.reverse_injective hip))) hport

namespace UDPServer

variable {s : UDPServer} {a x : UDPAddr}

theorem lookup_remember (s : UDPServer) (x : UDPAddr) (k : String) :
    (s.remember x).peers.lookup k = if k = x.string then some x else s.peers.lookup k := by
  split_ifs with hk
  · rw [hk]
    exact AList.lookup_insert _
  · exact AList.lookup_insert_ne hk

/-- Every peer is filed under its own address. -/
def Keyed (s : UDPServer) : Prop := ∀ k x, s.peers.lookup k = some x → k = x.string

theorem mem_addresses (hs : s.Keyed) : a ∈ s.addresses ↔ s.peers.lookup a.string = some a := by
  constructor
  · intro ha
    obtain ⟨⟨k, x⟩, hmem, rfl⟩ := List.mem_map.mp ha
    have hlookup : s.peers.lookup k = some x := AList.mem_lookup_iff.mpr hmem
    rw [← hs k x hlookup]
    exact hlookup
  · intro ha
    exact List.mem_map.mpr ⟨⟨a.string, a⟩, AList.mem_lookup_iff.mp ha, rfl⟩

theorem Keyed.remember (hs : s.Keyed) (x : UDPAddr) : (s.remember x).Keyed := by
  intro k y hk
  rw [lookup_remember] at hk
  split_ifs at hk with hx
  · rw [hx, Option.some.inj hk]
  · exact hs k y hk

theorem mem_addresses_remember (hs : s.Keyed) :
    a ∈ (s.remember x).addresses ↔ a = x ∨ a ∈ s.addresses := by
  rw [mem_addresses (hs.remember x), mem_addresses hs, lookup_remember]
  by_cases hx : a.string = x.string
  · rw [if_pos hx, UDPAddr.string_injective hx]
    simp
  · have hne : a ≠ x := fun heq => hx (heq ▸ rfl)
    simp [if_neg hx, hne]

end UDPServer

/-- The datagrams of a run with their senders. -/
def received (es : List BridgeEvent) : List (UDPAddr × Bytes) :=
  es.filterMap fun e =>
    match e with
    | .receive remoteAddr datagram => some (remoteAddr, datagram)
    | _ => none

/-- `ParseAudioHeader` takes the datagram, as far as it was read. -/
def ValidHeader (datagram : Bytes) : Prop := ∃ p, parseAudioHeader (datagram.take 4096) = .ok p

instance (datagram : Bytes) : Decidable (ValidHeader datagram) :=
  match h : parseAudioHeader (datagram.take 4096) with
  | .ok p => isTrue ⟨p, h⟩
  | .error _ => isFalse fun ⟨_, hp⟩ => by rw [h] at hp; cases hp

/-- Whose datagram has the length of a header. -/
def BridgeEvent.joins : BridgeEvent → Option UDPAddr
  | .receive remoteAddr datagram =>
    if (datagram.take 4096).length < audioHeaderSize then none else some remoteAddr
  | _ => none

/-- What an event makes of the RoIP handler: a datagram with a valid header becomes a call of
`HandleRoIPAudio` with the packet, any other is dropped, and nothing else starts one. -/
def Injects (b : Bridge) (e : BridgeEvent) (b' : Bridge) : Prop :=
  match e with
  | .receive _ datagram =>
    match parseAudioHeader (datagram.take 4096) with
    | .ok (hdr, _) => b'.server.pool.task .roip =
        Hub.handleRoIPAudio hdr.channelID.toNat (datagram.take 4096)
    | .error _ => b'.server.pool.task .roip = .ret () ∨ b'.server = b.server
  | .server (.advance .roip) => True
  | _ => b'.server.pool.task .roip = b.server.pool.task .roip

section Listening

variable {b b' : Bridge} {e : BridgeEvent} {es : List BridgeEvent} {a : UDPAddr}
  {datagram : Bytes}

theorem ValidHeader.long (h : ValidHeader datagram) :
    audioHeaderSize ≤ (datagram.take 4096).length := by
  obtain ⟨p, hp⟩ := h
  rw [parseAudioHeader_eq] at hp
  cases hquick : parseAudioHeaderQuick (datagram.take 4096) with
  | error err =>
    rw [hquick] at hp
    cases hp
  | ok packet => exact ((parseAudioHeaderQuick_accepts _).mp ⟨packet, hquick⟩).1

/-- The peers after one step. -/
theorem bridgeStep_peers (h : bridgeStep b e = some b') :
    b'.udp.peers = (e.joins.elim b.udp fun a => b.udp.remember a).peers := by
  cases e with
  | server e => exact congrArg UDPServer.peers (bridgeStep_server h).2.1
  | receive remoteAddr datagram =>
    simp only [bridgeStep] at h
    split_ifs at h with _ hshort
    · obtain rfl := Option.some.inj h
      rw [BridgeEvent.joins, if_pos hshort, Option.elim_none]
    · obtain ⟨t, _, rfl⟩ := Option.map_eq_some_iff.mp h
      rw [BridgeEvent.joins, if_neg hshort, Option.elim_some]
  | stop =>
    obtain rfl := Option.some.inj h
    rfl

/-- What the hub does of itself hands nothing to the RoIP handler. -/
theorem injects_server {e : ServerEvent} (h : bridgeStep b (.server e) = some b') :
    Injects b (.server e) b' := by
  have hstep := (bridgeStep_server h).1
  by_cases hroip : e.thread = some .roip
  · cases e with
    | serve r =>
      cases r with
      | datagram data => cases h
      | _ => cases hroip
    | advance i =>
      obtain rfl : i = .roip := Option.some.inj hroip
      trivial
    | timerFires ch timer => cases hroip
    | tick d => cases hroip
  · have htask := serverStep_task hstep hroip
    unfold Injects
    split
    · rename_i heq
      cases heq
    · trivial
    · exact htask

/-- A datagram that is too short for a header is not handed on, any other is if its header is
valid. -/
theorem injects_receive {remoteAddr : UDPAddr}
    (h : bridgeStep b (.receive remoteAddr datagram) = some b') :
    Injects b (.receive remoteAddr datagram) b' := by
  simp only [Injects, parseAudioHeader_eq]
  simp only [bridgeStep] at h
  split_ifs at h with _ hshort
  · obtain rfl := Option.some.inj h
    cases hquick : parseAudioHeaderQuick (datagram.take 4096) with
    | error err => exact Or.inr rfl
    | ok packet =>
      -- a header has at least eight bytes
      have hlong := ((parseAudioHeaderQuick_accepts _).mp ⟨packet, hquick⟩).1
      exact absurd hshort (Nat.not_lt.mpr hlong)
  · obtain ⟨t, ht, rfl⟩ := Option.map_eq_some_iff.mp h
    obtain ⟨_, _, _, _, htask, _⟩ := serverStep_serve ht
    have hprog : t.pool.task .roip = Hub.roipDatagram datagram := htask
    simp only [Hub.roipDatagram] at hprog
    cases hquick : parseAudioHeaderQuick (datagram.take 4096) with
    | error err =>
      rw [hquick] at hprog
      exact Or.inl hprog
    | ok packet =>
      rw [hquick] at hprog
      exact hprog

theorem injects (h : bridgeStep b e = some b') : Injects b e b' := by
  cases e with
  | server e => exact injects_server h
  | receive remoteAddr datagram => exact injects_receive h
  | stop =>
    obtain rfl := Option.some.inj h
    rfl

theorem received_concat (es : List BridgeEvent) (e : BridgeEvent) :
    received (es ++ [e]) = received es ++ received [e] := List.filterMap_append ..

theorem joins_eq_some_iff : e.joins = some a ↔
    ∃ d, (a, d) ∈ received [e] ∧ audioHeaderSize ≤ (d.take 4096).length := by
  cases e with
  | receive remoteAddr datagram =>
    have hone : received [.receive remoteAddr datagram] = [(remoteAddr, datagram)] := rfl
    simp only [BridgeEvent.joins, hone, List.mem_singleton, Prod.mk.injEq]
    constructor
    · intro hjoin
      split_ifs at hjoin with hshort
      exact ⟨datagram, ⟨(Option.some.inj hjoin).symm, rfl⟩, Nat.not_lt.mp hshort⟩
    · rintro ⟨d, ⟨rfl, rfl⟩, hlong⟩
      exact if_neg (Nat.not_lt.mpr hlong)
  | _ =>
    constructor
    · intro hjoin
      cases hjoin
    · rintro ⟨d, hd, _⟩
      cases hd

/-- The peers after a run are the senders of the datagrams that are long enough for a header. -/
theorem peers_of_run {cfg : Config} {recorder : Option AudioRecorder} {udpPort : ℕ} {bound : Bool}
    {heap : Clients} {now : ℤ}
    (hrun : Run bridgeStep (Bridge.init cfg recorder udpPort bound heap now) es b) :
    b.udp.Keyed ∧ ∀ a, a ∈ b.udp.addresses ↔
      ∃ d, (a, d) ∈ received es ∧ audioHeaderSize ≤ (d.take 4096).length := by
  induction es using List.reverseRecOn generalizing b with
  | nil =>
    obtain rfl := Run.nil_iff.mp hrun
    have hnone : (Bridge.init cfg recorder udpPort bound heap now).udp.peers = ∅ := by
      unfold Bridge.init UDPServer.start
      dsimp only
      split_ifs <;> rfl
    refine ⟨fun k x hk => ?_, fun a => ?_⟩
    · rw [hnone] at hk
      cases hk
    · rw [UDPServer.addresses, hnone]
      simp [received]
  | append_singleton es e ih =>
    obtain ⟨b₀, hrun₀, hstep⟩ := Run.snoc_iff.mp hrun
    obtain ⟨hkeyed, hpeers⟩ := ih hrun₀
    have hsplit (a : UDPAddr) :
        (∃ d, (a, d) ∈ received (es ++ [e]) ∧ audioHeaderSize ≤ (d.take 4096).length) ↔
          a ∈ b₀.udp.addresses ∨ e.joins = some a := by
      rw [hpeers, joins_eq_some_iff, received_concat, ← exists_or]
      simp only [List.mem_append, or_and_right]
    have hudp := bridgeStep_peers hstep
    simp only [hsplit]
    -- a step makes at most one address a peer
    cases hjoin : e.joins with
    | none =>
      rw [hjoin, Option.elim_none] at hudp
      refine ⟨fun k x hk => hkeyed k x (hudp ▸ hk), fun a => ?_⟩
      rw [UDPServer.addresses, hudp, ← UDPServer.addresses]
      simp
    | some x =>
      rw [hjoin, Option.elim_some] at hudp
      refine ⟨fun k y hk => hkeyed.remember x k y (hudp ▸ hk), fun a => ?_⟩
      rw [UDPServer.addresses, hudp, ← UDPServer.addresses,
        UDPServer.mem_addresses_remember hkeyed, or_comm, Option.some_inj, eq_comm]

/-- What has been written to the socket went to peers. -/
theorem written_to_peers {cfg : Config} {recorder : Option AudioRecorder} {udpPort : ℕ}
    {bound : Bool} {heap : Clients} {now : ℤ}
    (hrun : Run bridgeStep (Bridge.init cfg recorder udpPort bound heap now) es b) :
    ∀ w ∈ b.written, w.1 ∈ b.udp.addresses := by
  induction es using List.reverseRecOn generalizing b with
  | nil =>
    obtain rfl := Run.nil_iff.mp hrun
    intro w hw
    cases hw
  | append_singleton es e ih =>
    obtain ⟨b₀, hrun₀, hstep⟩ := Run.snoc_iff.mp hrun
    have hgrow : ∀ a, a ∈ b₀.udp.addresses → a ∈ b.udp.addresses := by
      intro a ha
      obtain ⟨d, hd, hlong⟩ := ((peers_of_run hrun₀).2 a).mp ha
      refine ((peers_of_run hrun).2 a).mpr ⟨d, ?_, hlong⟩
      rw [received_concat]
      exact List.mem_append_left _ hd
    intro w hw
    by_cases he : ∀ e', e ≠ .server e'
    · rw [(bridgeStep_quiet he hstep).2.1] at hw
      exact hgrow _ (ih hrun₀ w hw)
    · obtain ⟨e', he'⟩ := not_forall.mp he
      obtain rfl := not_not.mp he'
      rw [(bridgeStep_server hstep).2.2] at hw
      rcases List.mem_append.mp hw with hw | hw
      · exact hgrow _ (ih hrun₀ w hw)
      · exact hgrow _ (mem_relayed hw).1

end Listening

/-- The peers are the senders of datagrams with a valid header. -/
def PeersValid (b : Bridge) (es : List BridgeEvent) : Prop :=
  ∀ a, a ∈ b.udp.addresses ↔ ∃ d, (a, d) ∈ received es ∧ ValidHeader d

/-- Whoever has sent something of the length of a header has sent a valid header too. -/
def SendersValid (es : List BridgeEvent) : Prop :=
  ∀ a d, (a, d) ∈ received es → audioHeaderSize ≤ (d.take 4096).length →
    ∃ d', (a, d') ∈ received es ∧ ValidHeader d'

/-- In every run: exactly the datagrams with a valid header are injected, what is relayed goes to
peers only, and the peers are those that sent a valid header exactly when nobody sent something
else alone. -/
theorem roip_registration (cfg : Config) (recorder : Option AudioRecorder) (udpPort : ℕ)
    (bound : Bool) (heap : Clients) (now : ℤ) {es : List BridgeEvent} {b : Bridge}
    (hrun : Run bridgeStep (Bridge.init cfg recorder udpPort bound heap now) es b) :
    (∀ e b', bridgeStep b e = some b' → Injects b e b') ∧
      (∀ w ∈ b.written, w.1 ∈ b.udp.addresses) ∧ (PeersValid b es ↔ SendersValid es) := by
  have hpeers := (peers_of_run hrun).2
  refine ⟨fun e b' h => injects h, written_to_peers hrun, fun h a d hd hlong => ?_, fun h a => ?_⟩
  · exact (h a).mp ((hpeers a).mpr ⟨d, hd, hlong⟩)
  · rw [hpeers]
    constructor
    · rintro ⟨d, hd, hlong⟩
      exact h a d hd hlong
    · rintro ⟨d, hd, hvalid⟩
      exact ⟨d, hd, hvalid.long⟩

def gateway : UDPAddr := ⟨"10.0.0.7", 4000⟩

/-- A gateway that first knocks with eight zero bytes and then speaks the protocol. -/
def knocking : List BridgeEvent :=
  [.receive gateway (List.replicate 8 0), .receive gateway (encodeAudioPacket 1 0 0 [1, 2])]

theorem roip_registration_knocking :
    ∃ b, Run bridgeStep bridgedHub knocking b ∧ b.udp.addresses = [gateway] ∧
      PeersValid b knocking := by
  have hrun := run_get bridgeStep bridgedHub knocking (by decide +kernel)
  refine ⟨_, hrun, by decide +kernel, ?_⟩
  refine (roip_registration defaultConfig none 5005 true sampleClients 0 hrun).2.2.mpr ?_
  have hvalid : ValidHeader (encodeAudioPacket 1 0 0 [1, 2]) := by decide
  intro a d hd _
  obtain rfl : a = gateway := by
    rcases List.mem_cons.mp hd with hd | hd
    · exact (Prod.mk.inj hd).1
    · exact (Prod.mk.inj (List.mem_singleton.mp hd)).1
  exact ⟨_, List.mem_cons_of_mem _ List.mem_cons_self, hvalid⟩

/-- The knock alone is enough to become a peer. -/
theorem roip_registration_fails :
    ∃ b, Run bridgeStep bridgedHub [.receive gateway (List.replicate 8 0)] b ∧
      ¬ PeersValid b [.receive gateway (List.replicate 8 0)] := by
  have hrun := run_get bridgeStep bridgedHub [.receive gateway (List.replicate 8 0)]
    (by decide +kernel)
  refine ⟨_, hrun, fun h => ?_⟩
  obtain ⟨d, hd, hvalid⟩ := (h gateway).mp (by decide +kernel)
  obtain ⟨-, rfl⟩ := Prod.mk.inj (List.mem_singleton.mp hd)
  exact absurd hvalid (by decide)

end TwoWayRadio

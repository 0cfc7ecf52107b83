import TwoWayRadio.AudioFanOut
import TwoWayRadio.ChannelFloor
import TwoWayRadio.HubRecorder
import TwoWayRadio.HubRequests

/-! The RoIP server beside the hub, and where the bytes of an audio packet go. -/
namespace TwoWayRadio
open Interleaving Transition

structure UDPAddr where
  ip : String
  port : ℕ
deriving DecidableEq

def UDPAddr.string (a : UDPAddr) : String := a.ip ++ ":" ++ toString a.port

inductive UDPConn
  | listening | closed
deriving DecidableEq

structure UDPServer where
  conn : Option UDPConn := none
  peers : AList (fun _ : String => UDPAddr) := ∅

namespace UDPServer

/-- `bound` is whether `ListenUDP` succeeds. -/
def start (bound : Bool) (s : UDPServer) : UDPServer :=
  if bound then { s with conn := some .listening } else s

def stop (s : UDPServer) : UDPServer := { s with conn := s.conn.map fun _ => .closed }

def remember (remoteAddr : UDPAddr) (s : UDPServer) : UDPServer :=
  { s with peers := s.peers.insert remoteAddr.string remoteAddr }

def addresses (s : UDPServer) : List UDPAddr := s.peers.entries.map fun e => e.2

/-- What is written to the socket. The channel is not looked at, and the error of a write to a
closed socket is dropped. -/
def broadcastAudio (_channelID : ChannelID) (data : Bytes) (s : UDPServer) :
    List (UDPAddr × Bytes) :=
  if s.conn = some .listening then s.addresses.map fun a => (a, data) else []

/-- The hub's relay callback is `BroadcastAudio`. -/
def relayed (s : UDPServer) (delivered : List Delivery) : List (UDPAddr × Bytes) :=
  delivered.flatMap fun d =>
    match d with
    | .relay ch data => s.broadcastAudio ch data
    | .enqueue .. => []

end UDPServer

/-- The hub's server with the RoIP server; `written` is what has been sent to which address. -/
structure Bridge where
  server : Server (Thread → Option Request)
  udp : UDPServer
  written : List (UDPAddr × Bytes)

inductive BridgeEvent
  | server (e : ServerEvent)
  | receive (remoteAddr : UDPAddr) (datagram : Bytes)
  | stop
deriving DecidableEq

def Bridge.hub (b : Bridge) : Hub := b.server.hub

/-- What `main` sets up: port 0 leaves the relay off. -/
def Bridge.init (cfg : Config) (recorder : Option AudioRecorder) (udpPort : ℕ) (bound : Bool)
    (heap : Clients) (now : ℤ) : Bridge where
  server := Server.init (newHub cfg recorder (0 < udpPort) heap now) fun _ => none
  udp := if 0 < udpPort then UDPServer.start bound {} else {}
  written := []

/-- `listenLoop` remembers the sender of every datagram of at least a header's length before it
looks at the header. -/
def bridgeStep (b : Bridge) : BridgeEvent → Option Bridge
  | .server (.serve (.datagram _)) => none
  | .server e => (serverStep servedObserver b.server e).map fun t =>
    { b with server := t,
             written := b.written ++
               b.udp.relayed (t.hub.outbox.drop b.server.hub.outbox.length) }
  | .receive remoteAddr datagram =>
    if b.udp.conn = some .listening then
      if (datagram.take 4096).length < audioHeaderSize then some b
      else (serverStep servedObserver b.server (.serve (.datagram datagram))).map fun t =>
        { b with server := t, udp := b.udp.remember remoteAddr }
    else none
  | .stop => some { b with udp := b.udp.stop }

variable {b b' : Bridge} {e : BridgeEvent}

theorem bridgeStep_server {e : ServerEvent} (h : bridgeStep b (.server e) = some b') :
    serverStep servedObserver b.server e = some b'.server ∧ b'.udp = b.udp ∧
      b'.written = b.written ++
        b.udp.relayed (b'.hub.outbox.drop b.hub.outbox.length) := by
  unfold bridgeStep at h
  split at h
  · cases h
  · rename_i heq
    cases heq
    obtain ⟨t, ht, rfl⟩ := Option.map_eq_some_iff.mp h
    exact ⟨ht, rfl, rfl⟩
  · rename_i heq
    cases heq
  · rename_i heq
    cases heq

/-- Every other step delivers and writes nothing. -/
theorem bridgeStep_quiet (he : ∀ e', e ≠ .server e') (h : bridgeStep b e = some b') :
    b'.hub.outbox = b.hub.outbox ∧ b'.written = b.written ∧ (b'.server = b.server ∨
      ∃ r, serverStep servedObserver b.server (.serve r) = some b'.server) := by
  cases e with
  | server e' => exact absurd rfl (he e')
  | receive remoteAddr datagram =>
    simp only [bridgeStep] at h
    split_ifs at h
    · obtain rfl := Option.some.inj h
      exact ⟨rfl, rfl, Or.inl rfl⟩
    · obtain ⟨t, ht, rfl⟩ := Option.map_eq_some_iff.mp h
      exact ⟨congrArg Hub.outbox (serverStep_starts ht).1, rfl, Or.inr ⟨_, ht⟩⟩
  | stop =>
    obtain rfl := Option.some.inj h
    exact ⟨rfl, rfl, Or.inl rfl⟩

/-- A packet whose header names channel `P`, with the All-Call flag or without it. -/
def Addressed (data : Bytes) (P : ChannelID) (allCall : Prop) : Prop :=
  ∃ packet, parseAudioHeaderQuick data = .ok packet ∧ packet.channelID.toNat = P ∧
    (packet.flags &&& flagAudioAllCall ≠ 0 ↔ allCall)

/-- The bytes of the packet that a handler has received. -/
def Request.packet : Request → Option Bytes
  | audio _ data => some data
  | datagram data => some (data.take 4096)
  | _ => none

/-- What a handler does with the bytes of a packet: it has received them itself, and they go where
their header says. -/
def Request.HandsOn (r : Request) : HubOp → Prop
  | .broadcastAudio ch sender bytes =>
    (∃ x data, r = .audio x data ∧ sender = some x ∧ bytes = data ∧ Addressed data ch False) ∨
      ∃ datagram, r = .datagram datagram ∧ bytes = datagram.take 4096
  | .allCallAudio x data => r = .audio x data ∧ ∃ ch, Addressed data ch True
  | .appendAudio ch payload =>
    ∃ x data allCall, r = .audio x data ∧ payload = data.drop audioHeaderSize ∧
      Addressed data ch allCall
  | .relay ch data => ∃ x allCall, r = .audio x data ∧ Addressed data ch allCall
  | .broadcastAll _ | .broadcastSignal .. | .sendJSON .. | .sendPriorityJSON ..
  | .onTransmissionStart .. | .onTransmissionEnd _ => r.packet = none
  | _ => True

section HandsOn

open Prog

theorem handsOn_of_serves {r : Request} (hr : r.sendsAudio = false) (hp : r.packet = none)
    {op : HubOp} (hop : op.servedBy r = true) : r.HandsOn op := by
  have hsilent : ∀ {p : Prop}, r.sendsAudio = true → p := fun htrue => by
    rw [hr] at htrue
    cases htrue
  cases op with
  | broadcastAudio ch sender bytes => exact hsilent hop
  | allCallAudio x data => exact hsilent hop
  | appendAudio ch payload => exact hsilent hop
  | relay ch data => exact hsilent hop
  | _ => trivial

theorem handsOn_handleBinaryAudio (x : ClientRef) (data : Bytes) :
    (Hub.handleBinaryAudio x data).All (Request.audio x data).HandsOn := by
  unfold Hub.handleBinaryAudio
  cases hparse : parseAudioHeaderQuick data with
  | error err => trivial
  | ok packet =>
    have haddressed : Addressed data packet.channelID.toNat
        (packet.flags &&& flagAudioAllCall ≠ 0) := ⟨packet, hparse, rfl, Iff.rfl⟩
    refine all_then trivial fun _ => all_when <| all_then trivial fun _ => all_when <|
      all_then trivial fun _ => all_when <| all_then trivial fun _ => all_bind (all_when ?_)
      fun _ => all_bind ?_ fun _ => all_then trivial fun _ => all_when ?_
    · exact all_perform ⟨x, data, _, rfl, rfl, haddressed⟩
    · unfold Hub.fanOut
      split_ifs with hflag
      · exact all_perform ⟨rfl, _, packet, hparse, rfl, iff_true_intro hflag⟩
      · exact all_perform (Or.inl ⟨x, data, rfl, rfl, rfl, packet, hparse, rfl,
          iff_false_intro hflag⟩)
    · exact all_perform ⟨x, _, rfl, haddressed⟩

theorem handsOn_roipDatagram (datagram : Bytes) :
    (Hub.roipDatagram datagram).All (Request.datagram datagram).HandsOn := by
  unfold Hub.roipDatagram
  dsimp only
  split
  · trivial
  · exact all_then trivial fun _ => all_when <| all_perform (Or.inr ⟨datagram, rfl, rfl⟩)

theorem handsOn_prog (r : Request) : r.prog.All r.HandsOn := by
  cases r with
  | audio x data => exact handsOn_handleBinaryAudio x data
  | datagram data => exact handsOn_roipDatagram data
  | connect x first => exact (serves_prog _).mono fun _ => handsOn_of_serves rfl rfl
  | signal x msg choices => exact (serves_prog _).mono fun _ => handsOn_of_serves rfl rfl
  | disconnect x => exact (serves_prog _).mono fun _ => handsOn_of_serves rfl rfl
  | totExpires ch timer => exact (serves_prog _).mono fun _ => handsOn_of_serves rfl rfl

end HandsOn

/-- What the step has delivered, and what it has written to the socket. -/
def Bridge.delivered (b b' : Bridge) : List Delivery := b'.hub.outbox.drop b.hub.outbox.length

def Bridge.sentOut (b b' : Bridge) : List (UDPAddr × Bytes) := b'.written.drop b.written.length

/-- A packet for a private channel, without the All-Call flag. -/
def PrivatePacket (h : Hub) (P : ChannelID) (data : Bytes) : Prop :=
  (∃ d, h.definitionOf P = some d ∧ d.isPrivate = true) ∧ Addressed data P False

/-- Where a step of its handler takes a private packet. -/
structure KeptPrivate (x : ClientRef) (P : ChannelID) (data : Bytes) (b b' : Bridge) : Prop where
  enqueued : ∀ y queue frame, .enqueue y queue frame ∈ b.delivered b' →
    frame = .binary data ∧ y ≠ x ∧ b.hub.Subscribed P y
  buffered : ∀ c, c ≠ P → b'.hub.activeTX c = b.hub.activeTX c
  relayed : b.sentOut b' = [] ∨ b.udp.conn = some .listening ∧
    b.sentOut b' = b.udp.addresses.map fun a => (a, data)

/-- The bytes that a step hands on are those of the packet that its handler has received. -/
structure OwnPacket (b b' : Bridge) (e : BridgeEvent) : Prop where
  enqueued : ∀ y queue bytes, .enqueue y queue (.binary bytes) ∈ b.delivered b' → ∃ i r,
    e = .server (.advance i) ∧ b.server.history i = some r ∧ r.packet = some bytes
  relayed : ∀ a bytes, (a, bytes) ∈ b.sentOut b' → ∃ x,
    e = .server (.advance (.client x)) ∧
      b.server.history (.client x) = some (.audio x bytes) ∧ a ∈ b.udp.addresses

/-- The calls of every handler in progress, as the run shows them. -/
abbrev HandingOn (b : Bridge) : Prop := ServedWith Request.HandsOn b.server

theorem HandingOn.step (hb : HandingOn b) (h : bridgeStep b e = some b') : HandingOn b' := by
  by_cases he : ∀ e', e ≠ .server e'
  · obtain ⟨_, _, hsame | ⟨r, hr⟩⟩ := bridgeStep_quiet he h
    · rwa [HandingOn, hsame]
    · exact ServedWith.step handsOn_prog hb hr
  · obtain ⟨e', he'⟩ := not_forall.mp he
    obtain rfl := not_not.mp he'
    exact ServedWith.step handsOn_prog hb (bridgeStep_server h).1

section Packet

variable {i : Thread} {op : HubOp} {k : op.Res → HubProg Unit}

theorem mem_relayed {u : UDPServer} {delivered : List Delivery} {a : UDPAddr} {bytes : Bytes}
    (hw : (a, bytes) ∈ u.relayed delivered) : a ∈ u.addresses ∧ u.conn = some .listening ∧
      ∃ ch, .relay ch bytes ∈ delivered := by
  obtain ⟨d, hd, hmem⟩ := List.mem_flatMap.mp hw
  cases d with
  | enqueue y queue frame => cases hmem
  | relay ch data =>
    simp only [UDPServer.broadcastAudio] at hmem
    split_ifs at hmem with hconn
    · obtain ⟨a', ha', heq⟩ := List.mem_map.mp hmem
      obtain ⟨rfl, rfl⟩ := Prod.mk.inj heq
      exact ⟨ha', hconn, ch, hd⟩
    · cases hmem

/-- A step of a thread, with its call. -/
theorem bridgeStep_call (hk : b.server.pool.task i = .call op k)
    (h : bridgeStep b (.server (.advance i)) = some b') :
    b'.hub = (op.run b.hub).2 ∧ b.delivered b' = op.sends b.hub ∧
      b.sentOut b' = b.udp.relayed (op.sends b.hub) := by
  obtain ⟨hstep, _, hwritten⟩ := bridgeStep_server h
  obtain ⟨op', k', hk', _, hhub, _⟩ := serverStep_advance hstep
  rw [hk] at hk'
  obtain ⟨rfl, _⟩ := Prog.call.inj hk'
  have hdelivered : b.delivered b' = op.sends b.hub := outbox_step hk hstep
  refine ⟨hhub, hdelivered, ?_⟩
  rw [Bridge.sentOut, hwritten, List.drop_left]
  exact congrArg b.udp.relayed hdelivered

/-- Bytes are handed on by the handler that has received them. -/
theorem HandingOn.ownPacket (hb : HandingOn b) (h : bridgeStep b e = some b') :
    OwnPacket b b' e := by
  -- every step but a call delivers nothing
  have hquiet : b.delivered b' = [] → b.sentOut b' = [] → OwnPacket b b' e := by
    intro hdelivered hsent
    refine ⟨fun y queue bytes hd => ?_, fun a bytes hw => ?_⟩
    · rw [hdelivered] at hd
      cases hd
    · rw [hsent] at hw
      cases hw
  have hsame : ∀ e', e = .server e' → b'.hub.outbox = b.hub.outbox → OwnPacket b b' e := by
    rintro e' rfl heq
    obtain ⟨_, _, hwritten⟩ := bridgeStep_server h
    refine hquiet ?_ ?_
    · rw [Bridge.delivered, heq, List.drop_length]
    · rw [Bridge.sentOut, hwritten, List.drop_left, heq, List.drop_length]
      rfl
  by_cases he : ∀ e', e ≠ .server e'
  · obtain ⟨heq, hwritten, _⟩ := bridgeStep_quiet he h
    refine hquiet ?_ ?_
    · rw [Bridge.delivered, heq, List.drop_length]
    · rw [Bridge.sentOut, hwritten, List.drop_length]
  obtain ⟨e', he'⟩ := not_forall.mp he
  obtain rfl := not_not.mp he'
  have hstep := (bridgeStep_server h).1
  rcases serverStep_part (f := Hub.outbox) (fun _ _ _ => rfl) hstep with
    houtbox | ⟨i, op, k, rfl, hk, _⟩
  · exact hsame _ rfl houtbox
  · obtain ⟨r, hr, hthread, hop⟩ := ServedWith.request hb hk
    obtain ⟨_, hdelivered, hsent⟩ := bridgeStep_call hk h
    refine ⟨fun y queue bytes hd => ⟨i, r, rfl, hr, ?_⟩, fun a bytes hw => ?_⟩
    · rw [hdelivered] at hd
      rcases HubOp.binary_of_sends hd with ⟨ch, sender, rfl⟩ | ⟨sender, rfl⟩
      · rcases hop with ⟨x, data, rfl, _, rfl, _⟩ | ⟨datagram, rfl, rfl⟩
        · rfl
        · rfl
      · obtain ⟨rfl, _⟩ := hop
        rfl
    · rw [hsent] at hw
      obtain ⟨ha, _, ch, hrelay⟩ := mem_relayed hw
      obtain rfl := HubOp.relay_of_sends hrelay
      obtain ⟨x, _, rfl, _⟩ := hop
      obtain rfl : Thread.client x = i := hthread
      exact ⟨x, rfl, hr, ha⟩

theorem Addressed.unique {data : Bytes} {P Q : ChannelID} {p q : Prop} (hp : Addressed data P p)
    (hq : Addressed data Q q) : P = Q ∧ (p ↔ q) := by
  obtain ⟨packet, hparse, rfl, hflag⟩ := hp
  obtain ⟨packet', hparse', rfl, hflag'⟩ := hq
  obtain rfl := Except.ok.inj (hparse.symm.trans hparse')
  exact ⟨rfl, hflag.symm.trans hflag'⟩

/-- A private packet goes to the subscribers of its channel, into its channel's recording and to
the peers of the RoIP server. -/
theorem HandingOn.keptPrivate {x : ClientRef} {P : ChannelID} {data : Bytes} (hb : HandingOn b)
    (h : bridgeStep b (.server (.advance (.client x))) = some b')
    (hserved : b.server.history (.client x) = some (.audio x data))
    (hprivate : PrivatePacket b.hub P data) : KeptPrivate x P data b b' := by
  obtain ⟨op, k, hk, _⟩ := serverStep_advance (bridgeStep_server h).1
  obtain ⟨r, hr, _, hop⟩ := ServedWith.request hb hk
  obtain rfl : .audio x data = r := Option.some.inj (hserved.symm.trans hr)
  obtain ⟨hhub, hdelivered, hsent⟩ := bridgeStep_call hk h
  have hfor := hprivate.2
  -- a call that neither delivers nor records leaves all three alone
  have hidle : op.sends b.hub = [] → op.records = false → KeptPrivate x P data b b' := by
    intro hsends hrecords
    rw [hsends] at hdelivered hsent
    refine ⟨fun y queue frame hd => ?_, fun c _ => ?_, Or.inl hsent⟩
    · rw [hdelivered] at hd
      cases hd
    · rw [hhub, HubOp.activeTX_run_of_not_records hrecords]
  cases op with
  | broadcastAudio ch sender bytes =>
    obtain ⟨x', data', heq, rfl, rfl, haddressed⟩ | ⟨datagram, heq, _⟩ := hop
    swap
    · cases heq
    cases heq
    obtain ⟨rfl, _⟩ := haddressed.unique hfor
    refine ⟨fun y queue frame hd => ?_, fun c _ => ?_, Or.inl ?_⟩
    · rw [hdelivered] at hd
      obtain ⟨z, hz, heq⟩ := List.mem_map.mp hd
      obtain ⟨rfl, _, rfl⟩ := Delivery.enqueue.inj heq
      obtain ⟨hsub, hne⟩ := List.mem_filter.mp hz
      refine ⟨rfl, fun hself => ?_, Hub.mem_subscribersOf.mp hsub⟩
      rw [hself] at hne
      exact absurd rfl (of_decide_eq_true hne)
    · rw [hhub, HubOp.activeTX_run_of_not_records rfl]
    · rw [hsent]
      refine List.flatMap_eq_nil_iff.mpr fun d hd => ?_
      obtain ⟨z, _, rfl⟩ := List.mem_map.mp hd
      rfl
  | allCallAudio x' bytes =>
    obtain ⟨heq, ch, haddressed⟩ := hop
    cases heq
    exact ((haddressed.unique hfor).2.mp trivial).elim
  | appendAudio ch payload =>
    obtain ⟨x', data', allCall, heq, rfl, haddressed⟩ := hop
    cases heq
    obtain ⟨rfl, _⟩ := haddressed.unique hfor
    refine ⟨fun y queue frame hd => ?_, fun c hc => ?_, Or.inl ?_⟩
    · rw [hdelivered] at hd
      cases hd
    · rw [hhub, HubOp.appendAudio_run, if_neg fun heq => hc heq.1]
    · rw [hsent]
      rfl
  | relay ch bytes =>
    obtain ⟨x', allCall, heq, _⟩ := hop
    cases heq
    refine ⟨fun y queue frame hd => ?_, fun c _ => ?_, ?_⟩
    · rw [hdelivered] at hd
      cases List.mem_singleton.mp hd
    · rw [hhub, HubOp.activeTX_run_of_not_records rfl]
    · have hwrites : b.sentOut b' = b.udp.broadcastAudio ch data := by
        rw [hsent]
        exact List.append_nil _
      rw [hwrites, UDPServer.broadcastAudio]
      split_ifs with hconn
      · exact Or.inr ⟨hconn, rfl⟩
      · exact Or.inl rfl
  | broadcastAll msg => cases hop
  | broadcastSignal ch msg => cases hop
  | sendJSON y msg => cases hop
  | sendPriorityJSON y msg => cases hop
  | onTransmissionStart ch y => cases hop
  | onTransmissionEnd ch => cases hop
  | _ => exact hidle rfl rfl

end Packet

/-- In every step of every run, the bytes of a private packet go only to the clients subscribed to
its channel, into the recording of its channel, and to the peers of the RoIP server; and no handler
hands on the bytes of another's packet. -/
theorem private_audio (cfg : Config) (recorder : Option AudioRecorder) (udpPort : ℕ) (bound : Bool)
    (heap : Clients) (now : ℤ) {es : List BridgeEvent}
    (hrun : Run bridgeStep (Bridge.init cfg recorder udpPort bound heap now) es b)
    (h : bridgeStep b e = some b') :
    OwnPacket b b' e ∧ ∀ x P data, e = .server (.advance (.client x)) →
      b.server.history (.client x) = some (.audio x data) → PrivatePacket b.hub P data →
      KeptPrivate x P data b b' := by
  have hb : HandingOn b := hrun.invariant (I := HandingOn) (fun _ _ _ hb h => hb.step h)
    (ServedWith.init _)
  refine ⟨hb.ownPacket h, ?_⟩
  rintro x P data rfl hserved hprivate
  exact hb.keptPrivate h hserved hprivate

/-- Unit 0 makes a private channel and takes its floor. Somebody sends eight bytes to the UDP port,
and unit 0 speaks. -/
def overheardTalk : List BridgeEvent :=
  (uninterrupted (.connect 0 0) 10 ++ uninterrupted (.signal 0 (.createChannel
    ⟨{ name := "ops", isPrivate := true, password := "pw" }, true⟩) {}) 20 ++
    uninterrupted (.signal 0 .pttDown {}) 8).map .server ++
  [.receive ⟨"10.0.0.7", 4000⟩ (List.replicate 8 0)] ++
  (uninterrupted (.audio 0 (encodeAudioPacket 9 0 1 [0, 0])) 7).map .server

/-- A hub with a RoIP server. -/
def bridgedHub : Bridge := Bridge.init defaultConfig none 5005 true sampleClients 0

theorem privatePacket_of_any {h : Hub} {P : ChannelID} {data : Bytes}
    (hdef : ((h.definitionOf P).any fun d => d.isPrivate) = true) (hdata : Addressed data P False) :
    PrivatePacket h P data := by
  cases hd : h.definitionOf P with
  | none =>
    rw [hd] at hdef
    cases hdef
  | some d =>
    rw [hd] at hdef
    exact ⟨⟨d, hd, hdef⟩, hdata⟩

theorem addressed_opsPacket : Addressed (encodeAudioPacket 9 0 1 [0, 0]) 9 False :=
  ⟨⟨9, 0, 1, [0, 0]⟩, by decide, by decide, by decide⟩

/-- The relay writes the packet of the private channel to the sender of the eight bytes. -/
theorem private_audio_fails : ∃ b b', Run bridgeStep bridgedHub overheardTalk b ∧
    bridgeStep b (.server (.advance (.client 0))) = some b' ∧
    b.server.history (.client 0) = some (.audio 0 (encodeAudioPacket 9 0 1 [0, 0])) ∧
    PrivatePacket b.hub 9 (encodeAudioPacket 9 0 1 [0, 0]) ∧ b.hub.holder 9 = some 0 ∧
    (⟨"10.0.0.7", 4000⟩, encodeAudioPacket 9 0 1 [0, 0]) ∈ b.sentOut b' := by
  have hrun := run_get bridgeStep bridgedHub overheardTalk (by decide +kernel)
  refine ⟨_, _, hrun, (Option.some_get (by decide +kernel)).symm, by decide +kernel,
    privatePacket_of_any (by decide +kernel) addressed_opsPacket, by decide +kernel, ?_⟩
  decide +kernel

theorem private_audio_overheardTalk : ∃ b b', Run bridgeStep bridgedHub overheardTalk b ∧
    bridgeStep b (.server (.advance (.client 0))) = some b' ∧
    KeptPrivate 0 9 (encodeAudioPacket 9 0 1 [0, 0]) b b' := by
  have hrun := run_get bridgeStep bridgedHub overheardTalk (by decide +kernel)
  have hstep : bridgeStep ((overheardTalk.foldlM bridgeStep bridgedHub).get (by decide +kernel))
      (.server (.advance (.client 0))) = some _ := (Option.some_get (by decide +kernel)).symm
  refine ⟨_, _, hrun, hstep, ?_⟩
  exact (private_audio defaultConfig none 5005 true sampleClients 0 hrun hstep).2 0 9 _ rfl
    (by decide +kernel) (privatePacket_of_any (by decide +kernel) addressed_opsPacket)

end TwoWayRadio

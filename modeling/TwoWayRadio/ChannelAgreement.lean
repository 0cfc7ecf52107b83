import TwoWayRadio.FloorAgreement

/-! Channel agreement: the channel a page is tuned to against the one the hub has its client on,
over any number of connections. -/
namespace TwoWayRadio
open Interleaving Transition

/-- The channel that a frame of the page says it is on. -/
def ClientFrame.target : ClientFrame → Option ChannelID
  | text (.joinChannel p) => some p.value.channelID
  | _ => none

/-- A client may switch to a channel if it is there already, or if the channel exists and is
public or has that password. -/
def Hub.admits (x : ClientRef) (p : JoinChannelPayload) (h : Hub) : Bool :=
  (h.heap x).currentChannelID = p.channelID ∨
    (h.definitionOf p.channelID).any fun d => !d.isPrivate || d.password == p.password

/-- The frame is a join that the hub admits. -/
def Hub.grants (x : ClientRef) (h : Hub) : ClientFrame → Bool
  | .text (.joinChannel p) => p.ok && h.admits x p.value
  | _ => false

namespace RadioState

/-- Some frame in flight asks for another channel. -/
def switching (r : RadioState) : Bool := r.uplink.any ClientFrame.switches

/-- The channel that the last join in flight asks for. -/
def asked (r : RadioState) : Option ChannelID := (r.uplink.filterMap ClientFrame.target).getLast?

end RadioState

/-- The step opens a connection, or the hub reads the last frame in flight that asks for another
channel: from here on it is settled which channel the hub puts the client on. -/
def Settles (s : Session) : SessionEvent → Bool
  | .opens .. => true
  | .receive _ =>
    match s.conn, s.radio.uplink with
    | some _, frame :: uplink => frame.switches && !uplink.any ClientFrame.switches
    | _, _ => false
  | _ => false

/-- With no other channel asked for, the hub puts the client of the connection on the channel of
the page: the registration finds it there, and the last frame that asks for a channel is a join
that the hub admits. -/
def FollowsPage (s : Session) : SessionEvent → Bool
  | .receive _ =>
    match s.conn, s.radio.uplink with
    | some x, frame :: uplink =>
      !frame.switches || uplink.any ClientFrame.switches || s.hub.grants x frame
    | _, _ => true
  | .server (.advance i) =>
    match (s.server.pool.task i).nextCall with
    | some (.register x first) =>
      s.conn ≠ some x || s.radio.switching ||
        s.hub.registrationChannel x first = some s.radio.currentChannelID
    | _ => true
  | _ => true

/-- No message is in flight between the page and the hub in either direction. -/
structure Session.Still (x : ClientRef) (s : Session) : Prop where
  conn : s.conn = some x
  wsOpen : s.radio.wsOpen = true
  uplink : s.radio.uplink = []
  downlink : s.downlink = []
  idle : s.server.pool.Idle (.client x)

namespace RadioState

variable {r r' : RadioState}

/-- What the page does about its channel: unless it stays where it is, it asks the hub, and a join
asks for the channel the page goes to. -/
structure Tuning (r r' : RadioState) : Prop where
  wsOpen : r'.wsOpen = r.wsOpen
  asked : r'.asked = some r'.currentChannelID ∨
    (r'.asked = r.asked ∧ r'.currentChannelID = r.currentChannelID)
  switching : r'.switching = true ∨
    (r'.switching = r.switching ∧ r'.currentChannelID = r.currentChannelID)

theorem filterMap_target {frames : List ClientFrame}
    (h : ∀ frame ∈ frames, frame.switches = false) : frames.filterMap ClientFrame.target = [] := by
  refine List.filterMap_eq_nil_iff.mpr fun frame hframe => ?_
  have hplain := h frame hframe
  cases frame with
  | text msg => cases msg <;> first | rfl | cases hplain
  | binary data => rfl

theorem Tuning.of_sent (hopen : r'.wsOpen = r.wsOpen)
    (hchannel : r'.currentChannelID = r.currentChannelID) (hsent : ∃ more,
      r'.uplink = r.uplink ++ more ∧ ∀ frame ∈ more, frame.switches = false) : Tuning r r' := by
  obtain ⟨more, hmore, hplain⟩ := hsent
  refine ⟨hopen, Or.inr ⟨?_, hchannel⟩, Or.inr ⟨?_, hchannel⟩⟩
  · rw [RadioState.asked, RadioState.asked, hmore, List.filterMap_append,
      filterMap_target hplain, List.append_nil]
  · have hnone : more.any ClientFrame.switches = false :=
      List.any_eq_false.mpr fun frame hframe => by
        rw [hplain frame hframe]
        exact Bool.false_ne_true
    rw [RadioState.switching, RadioState.switching, hmore, List.any_append, hnone, Bool.or_false]

theorem Tuning.of_same (h : SameSession r r') : Tuning r r' :=
  .of_sent h.wsOpen h.currentChannelID h.sent

/-- A page that reads its oldest frame off may lose a join, but not its last one. -/
theorem asked_of_tail {frame : ClientFrame} {uplink : List ClientFrame} {c : ChannelID}
    (huplink : r.uplink = frame :: uplink) (h : (uplink.filterMap ClientFrame.target).getLast? =
      some c) : r.asked = some c := by
  rw [asked, huplink, List.filterMap_cons]
  cases frame.target with
  | none => exact h
  | some d =>
    show (d :: uplink.filterMap ClientFrame.target).getLast? = some c
    rw [List.getLast?_cons, h]
    rfl

theorem submitChannel_tuning (p : CreateChannelPayload) (hopen : r.wsOpen = true) :
    Tuning r (r.submitChannel p) := by
  unfold submitChannel
  split_ifs
  · exact .of_same (.refl r)
  · rw [wsSend, if_pos hopen]
    refine ⟨rfl, Or.inr ⟨?_, rfl⟩, Or.inl ?_⟩
    · show ((r.uplink ++ [_]).filterMap ClientFrame.target).getLast? = _
      rw [List.filterMap_append]
      exact congrArg List.getLast? (List.append_nil _)
    · show (r.uplink ++ [_]).any ClientFrame.switches = true
      rw [List.any_append]
      exact Bool.or_true _

theorem sends_tuning {msg : ClientSignal} (hmsg : msg.steers = false) (r : RadioState) :
    Tuning r (r.wsSend [.text msg]) := by
  refine .of_same ((SameSession.refl r).wsSend fun frame hframe => ?_)
  rw [List.mem_singleton.mp hframe]
  cases msg <;> first | rfl | cases hmsg

theorem changeChannel_tuning (newID : ChannelID) (answer : Option String)
    (hopen : r.wsOpen = true) :
    Tuning r (r.changeChannel newID answer) := by
  have hnone : Tuning r r := .of_same (.refl r)
  unfold changeChannel
  split
  · exact hnone
  · split
    · exact hnone
    · dsimp only
      -- neither letting the floor go nor ending the call retunes the page
      have h₁ : SameSession r (if r.isTransmitting then r.releaseFloor else r) := by
        split
        · exact r.releaseFloor_same
        · exact .refl r
      generalize (if r.isTransmitting then r.releaseFloor else r) = r₁ at h₁ ⊢
      have h₂ : SameSession r (if r₁.isVideoCallActive then r₁.endVideoCall else r₁) := by
        split
        · have hcall : SameSession r { r₁ with isVideoCallActive := false } :=
            ⟨h₁.wsOpen, h₁.pttMode, h₁.currentChannelID, h₁.sent⟩
          refine hcall.wsSend fun frame hframe => ?_
          rw [List.mem_singleton.mp hframe]
          rfl
        · exact h₁
      generalize (if r₁.isVideoCallActive then r₁.endVideoCall else r₁) = r₂ at h₂ ⊢
      rw [wsSend, if_pos (h₂.wsOpen.trans hopen)]
      refine ⟨h₂.wsOpen, Or.inl ?_, Or.inl ?_⟩
      · show ((r₂.uplink ++ [_]).filterMap ClientFrame.target).getLast? = some newID
        rw [List.filterMap_append]
        exact List.getLast?_concat
      · show (r₂.uplink ++ [_]).any ClientFrame.switches = true
        rw [List.any_append]
        exact Bool.or_true _

end RadioState

theorem radioEvent_tuning {r : RadioState} {e : RadioEvent} (hlocal : e.isLocal = true)
    (hopen : r.wsOpen = true) : r.Tuning (radioEvent r e) := by
  cases hretunes : e.retunes with
  | false => exact .of_same (radioEvent_same hlocal hretunes)
  | true =>
    cases e with
    | setPttMode mode => exact .of_sent rfl rfl (RadioState.SameSession.refl r).sent
    | changeChannel newID answer => exact RadioState.changeChannel_tuning newID answer hopen
    | _ => cases hretunes

section Bound

variable {γ : Type} {o : Observer γ} {x : ClientRef} {c : ChannelID}

theorem leads_current {α : Type} {p : HubProg α} {s : Hub × γ}
    (hp : p.All fun op => op.moves = false) (hs : (s.1.heap x).currentChannelID = c) :
    Leads o x (fun _ h => (h.heap x).currentChannelID = c) p s :=
  Prog.outline_of_kept (fun _ t hop ht => (HubOp.current_of_stays hop t.1 x).trans ht)
    (fun _ _ he ht => he.current.trans ht) hp hs

theorem Hub.admits_stable {h h' : Hub} {p : JoinChannelPayload} (he : Elsewhere x h h')
    (hp : h.admits x p = true) : h'.admits x p = true := by
  rcases of_decide_eq_true hp with hcur | hdef
  · exact decide_eq_true (Or.inl (he.current.trans hcur))
  · obtain ⟨d, hd, hfits⟩ := (Option.any_eq_true _ _).mp hdef
    exact decide_eq_true (Or.inr ((Option.any_eq_true _ _).mpr ⟨d, he.definition _ d hd, hfits⟩))

theorem enterChannel_leads_to {s : Hub × γ} :
    Leads o x (fun _ h => (h.heap x).currentChannelID = c) (Hub.enterChannel x c) s := by
  simp only [Hub.enterChannel, Prog.perform_bind]
  refine leads_call fun t ht t' ht' => leads_current ?_ ?_
  · refine ⟨rfl, fun _ => Prog.all_bind ?_ fun _ => ?_⟩
    · exact (Hub.background_broadcastUserList c).mono
        fun _ => HubOp.moves_of_background
    · exact (untouched_showChannel x c).mono fun _ => HubOp.moves_of_untouched
  · rw [ht']
    simp [HubOp.run, Hub.setClient]

/-- A switch that the hub admits puts the client on the channel, whatever the other threads do. -/
theorem switchChannel_leads_to {password : String} {s : Hub × γ}
    (hs : s.1.admits x ⟨c, password⟩ = true) :
    Leads o x (fun _ h => (h.heap x).currentChannelID = c) (Hub.switchChannel x c password) s := by
  simp only [Hub.switchChannel, Prog.perform_bind]
  refine leads_call fun t ht t' ht' => ?_
  -- other threads define channels, but take none back: what was admitted stays so
  have hadmits := Hub.admits_stable ht hs
  rw [show t.1 = t'.1 from ht'.symm] at hadmits ⊢
  cases htarget : ((HubOp.lookupSwitch x c).run t'.1).1.1 with
  | none =>
    refine leads_current (Prog.all_perform rfl) ?_
    rcases of_decide_eq_true hadmits with hcur | hdef
    · exact hcur
    · rw [show t'.1.definitionOf c = none from htarget] at hdef
      cases hdef
  | some d =>
    refine leads_call fun u hu u' hu' => ?_
    have hadmits' := Hub.admits_stable hu hadmits
    rw [show u.1 = u'.1 from hu'.symm] at hadmits' hu ⊢
    have hdef : u'.1.definitionOf c = some d := hu.definition c d htarget
    show Leads o x _ (if (u'.1.heap x).currentChannelID = c then _ else _) u'
    -- already there, refused for the password, or let in
    split_ifs with hcur hwrong
    · exact hcur
    · rcases of_decide_eq_true hadmits' with hthere | hfits
      · exact absurd hthere hcur
      · rw [hdef] at hfits
        simp [hwrong.1, hwrong.2] at hfits
    · exact leads_bind (Q := fun _ _ => True) (Prog.outline_of_forall (fun _ _ => trivial) _ _)
        fun _ _ _ => enterChannel_leads_to

end Bound

namespace Session

variable {s t : Session} {x : ClientRef}

/-- What a step does to a page with an open connection. -/
inductive PageStep (x : ClientRef) (s : Session) (e : SessionEvent) (t : Session) : Prop
  | reads (choices : Choices) (frame : ClientFrame) (uplink : List ClientFrame)
      (he : e = .receive choices) (huplink : s.radio.uplink = frame :: uplink)
      (hradio : t.radio = { s.radio with uplink := uplink }) (hconn : t.conn = some x)
      (hstep : serverStep floorObserver s.server (.serve (frame.request x choices)) =
        some t.server)
  | server (e' : ServerEvent) (he : e = .server e') (hreads : e'.readsFrom x = false)
      (hstep : serverStep floorObserver s.server e' = some t.server) (hradio : t.radio = s.radio)
      (hconn : t.conn = some x)
  | page (hserver : t.server = s.server) (hradio : s.radio.Tuning t.radio)
      (hconn : t.conn = some x)
  | closes (hserver : t.server = s.server) (hconn : t.conn = none)

theorem receive_eq {choices : Choices} (h : sessionStep s (.receive choices) = some t)
    (hx : s.conn = some x) : ∃ frame uplink, s.radio.uplink = frame :: uplink ∧
      t.radio = { s.radio with uplink := uplink } ∧ t.conn = some x ∧
      serverStep floorObserver s.server (.serve (frame.request x choices)) = some t.server := by
  simp only [sessionStep] at h
  split at h
  · rename_i y frame uplink hconn huplink
    obtain rfl := Option.some.inj (hx.symm.trans hconn)
    obtain ⟨hstep, hradio, hconn', _⟩ := serve_eq h
    exact ⟨frame, uplink, huplink, hradio, hconn'.trans hx, hstep⟩
  · cases h

theorem page_step {e : SessionEvent} (h : sessionStep s e = some t) (hx : s.conn = some x)
    (hopen : s.radio.wsOpen = true) : PageStep x s e t := by
  -- `WritePump` does nothing to the page
  have hpump : s.radio.Tuning s.radio := .of_same (.refl s.radio)
  cases e with
  | page e =>
    simp only [sessionStep] at h
    split_ifs at h with hlocal
    cases h
    exact .page rfl (radioEvent_tuning hlocal hopen) hx
  | submitChannel p =>
    cases h
    exact .page rfl (RadioState.submitChannel_tuning p hopen) hx
  | sends msg =>
    simp only [sessionStep] at h
    split_ifs at h with hsteers
    cases h
    exact .page rfl (RadioState.sends_tuning (Bool.eq_false_of_not_eq_true hsteers) s.radio) hx
  | receive choices =>
    obtain ⟨frame, uplink, huplink, hradio, hconn, hstep⟩ := receive_eq h hx
    exact .reads choices frame uplink rfl huplink hradio hconn hstep
  | server e =>
    simp only [sessionStep] at h
    split_ifs at h with hreads
    obtain ⟨hstep, hradio, hconn, _⟩ := serve_eq h
    refine .server e rfl ?_ hstep hradio (hconn.trans hx)
    rw [hx] at hreads
    exact Bool.eq_false_of_not_eq_true hreads
  | poll =>
    simp only [sessionStep] at h
    split at h
    · split_ifs at h
      cases h
      exact .page rfl hpump hx
    · split at h <;> cases h <;> exact .page rfl hpump hx
    · cases h
  | write queue =>
    simp only [sessionStep] at h
    split at h <;> cases h <;> exact .page rfl hpump hx
  | deliver =>
    simp only [sessionStep] at h
    split at h <;> cases h
    exact .page rfl (.of_same (s.radio.onMessage_same _)) hx
  | opens y first =>
    simp only [sessionStep] at h
    rw [if_neg (by rw [hx]; exact Option.some_ne_none x)] at h
    cases h
  | closes =>
    simp only [sessionStep] at h
    split_ifs at h
    cases h
    exact .closes rfl rfl

/-- A page that has no connection gets one by opening it. -/
theorem connects {e : SessionEvent} (h : sessionStep s e = some t) (hs : s.conn = none)
    (ht : t.conn = some x) : ∃ first, e = .opens x first ∧ t.radio.wsOpen = true ∧
      t.radio.uplink = [] ∧
      serverStep floorObserver s.server (.serve (.connect x first)) = some t.server := by
  cases server_step h with
  | none hserver hconn =>
    rcases hconn with hconn | hconn
    · cases (ht.symm.trans hconn).trans hs
    · cases ht.symm.trans hconn
  | page y r hy hr hstep hconn => cases hs.symm.trans hy
  | hub e' he hstep hconn => cases (ht.symm.trans hconn).trans hs
  | opens y first he hstep hconn =>
    obtain rfl := Option.some.inj (ht.symm.trans hconn)
    subst he
    simp only [sessionStep] at h
    split_ifs at h
    obtain ⟨_, hradio, _⟩ := serve_eq h
    exact ⟨first, rfl, by rw [hradio], by rw [hradio], hstep⟩

end Session

/-- The rest of what client `x` is doing leaves it on channel `c`. -/
def BoundFor (c : ChannelID) (x : ClientRef) (s : Server FloorHistory) : Prop :=
  Leads floorObserver x (fun _ h => (h.heap x).currentChannelID = c) (s.pool.task (.client x))
    s.pool.shared

/-- Client `x` has still to be registered, and then stays where that puts it. -/
def Registering (x : ClientRef) (s : Server FloorHistory) : Prop :=
  ∃ first k, s.pool.task (.client x) = .call (.register x first) k ∧
    ∀ ch, (k ch).All fun op => op.moves = false

section Server

variable {s t : Server FloorHistory} {x : ClientRef} {c : ChannelID} {e : ServerEvent}

theorem BoundFor.idle (hs : BoundFor c x s) (hidle : s.pool.Idle (.client x)) :
    (s.hub.heap x).currentChannelID = c := by
  unfold BoundFor at hs
  rw [hidle] at hs
  exact hs

theorem BoundFor.elsewhere (hs : BoundFor c x s) (hunderway : Underway floorObserver s)
    (h : serverStep floorObserver s e = some t) (he : e.thread ≠ some (.client x)) :
    BoundFor c x t := by
  unfold BoundFor
  rw [serverStep_task h he]
  exact Prog.Outline.stable (fun _ _ _ => Elsewhere.trans)
    (fun _ _ _ hfar hcur => hfar.current.trans hcur) hs (elsewhere_step hunderway h he)

theorem BoundFor.advance (hs : BoundFor c x s)
    (h : serverStep floorObserver s (.advance (.client x)) = some t) : BoundFor c x t := by
  obtain ⟨p, hp, rfl⟩ := Option.map_eq_some_iff.mp h
  obtain ⟨op, k, hk, hshared, htask, _⟩ := Pool.advance_eq hp
  unfold BoundFor at hs
  rw [hk] at hs
  show Leads _ _ _ (p.task (.client x)) p.shared
  rw [htask, hshared]
  exact (Prog.Outline.step (fun s => Elsewhere.refl x s.1) hs).2

theorem Registering.not_idle (hs : Registering x s) : ¬ s.pool.Idle (.client x) := by
  obtain ⟨first, k, hk, _⟩ := hs
  exact fun hidle => by cases hk.symm.trans hidle

theorem registering_of_connect {first : ℕ}
    (h : serverStep floorObserver s (.serve (.connect x first)) = some t) : Registering x t := by
  obtain ⟨_, _, _, _, htask, _⟩ := serverStep_serve h
  refine ⟨first, fun ch => Prog.ifSome ch (fun ch => do
    (HubOp.addSubscriber ch x).call
    Hub.broadcastUserList ch) >>= fun _ => Hub.welcomeClient x, htask, fun ch => ?_⟩
  refine Prog.all_bind (Prog.all_ifSome fun ch => Prog.all_then rfl fun _ => ?_) fun _ => ?_
  · exact (Hub.background_broadcastUserList ch).mono
      fun _ => HubOp.moves_of_background
  · exact (untouched_welcomeClient x).mono fun _ => HubOp.moves_of_untouched

/-- The registration puts the client on its channel. -/
theorem Registering.advance {first : ℕ} {k : Option ChannelID → HubProg Unit}
    (hk : s.pool.task (.client x) = .call (.register x first) k)
    (hstays : ∀ ch, (k ch).All fun op => op.moves = false)
    (hreg : s.hub.registrationChannel x first = some c)
    (h : serverStep floorObserver s (.advance (.client x)) = some t) : BoundFor c x t := by
  obtain ⟨op, k', hk', _, hhub, _, htask, _⟩ := serverStep_advance h
  rw [hk] at hk'
  cases hk'
  unfold BoundFor
  rw [htask]
  refine leads_current (hstays _) ?_
  show (t.hub.heap x).currentChannelID = c
  rw [hhub]
  show ((s.hub.register x first).2.heap x).currentChannelID = c
  rw [Hub.register_eq, hreg]
  simp

theorem bound_of_serve {r : Request} (hr : r.thread = .client x)
    (hmoves : r.prog.All fun op => op.moves = false)
    (hcur : (s.hub.heap x).currentChannelID = c)
    (h : serverStep floorObserver s (.serve r) = some t) : BoundFor c x t := by
  obtain ⟨_, _, _, hshared, htask, _⟩ := serverStep_serve h
  rw [hr] at htask
  unfold BoundFor
  rw [htask]
  refine leads_current hmoves ?_
  rw [hshared]
  exact hcur

theorem moves_unregisterClient : (Hub.unregisterClient x).All fun op => op.moves = false := by
  have hback : ∀ {p : HubProg Unit}, Hub.Background p → p.All fun op => op.moves = false :=
    fun hp => hp.mono fun _ => HubOp.moves_of_background
  refine Prog.all_then rfl fun ch => Prog.all_ifSome fun ch => Prog.all_then rfl fun _ =>
    Prog.all_bind (hback (Hub.background_broadcastUserList ch)) fun _ =>
    Prog.all_bind (hback (Hub.background_endVideoOf ch x)) fun _ => Prog.all_when ?_
  exact Prog.all_then rfl fun c =>
    (untouched_announceIdle ch c).mono fun _ => HubOp.moves_of_untouched

/-- The handler of a frame that asks for no other channel. -/
theorem moves_request {frame : ClientFrame} (hplain : frame.switches = false) (choices : Choices) :
    (frame.request x choices).prog.All fun op => op.moves = false := by
  have hstays := stays_prog (ClientFrame.leaves_request hplain x choices)
  refine (hstays.and (serves_prog _)).mono fun op hop => ?_
  cases op with
  | register y first => cases frame <;> cases hop.2
  | setCurrentChannel y new => cases hop.1
  | _ => rfl

/-- The hub reads a join that it admits. -/
theorem bound_of_grant {p : Decoded JoinChannelPayload} {choices : Choices} (hok : p.ok = true)
    (hadmits : s.hub.admits x p.value = true)
    (h : serverStep floorObserver s (.serve (.signal x (.joinChannel p) choices)) = some t) :
    BoundFor p.value.channelID x t := by
  obtain ⟨_, _, _, hshared, htask, _⟩ := serverStep_serve h
  have hprog : (Request.signal x (.joinChannel p) choices).prog =
      Hub.switchChannel x p.value.channelID p.value.password := if_pos hok
  unfold BoundFor
  rw [show t.pool.task (.client x) = _ from htask, hprog]
  refine switchChannel_leads_to ?_
  rw [hshared]
  exact hadmits

end Server

/-- What holds in every run: while the page has a connection it can send, and the last join in
flight asks for its channel. -/
structure Paged (s : Session) : Prop where
  underway : Underway floorObserver s.server
  online : ∀ x, s.conn = some x → s.radio.wsOpen = true ∧
    ∀ c, s.radio.asked = some c → c = s.radio.currentChannelID

/-- The hub puts the client of the connection on the channel of the page, or is still to be asked
for another channel. -/
structure Tracking (s : Session) : Prop extends Paged s where
  bound : ∀ x, s.conn = some x → s.radio.switching = true ∨ Registering x s.server ∨
    BoundFor s.radio.currentChannelID x s.server

section Invariant

variable {s t : Session} {e : SessionEvent} {x : ClientRef}

theorem Paged.step (hs : Paged s) (h : sessionStep s e = some t) : Paged t := by
  constructor
  · cases Session.server_step h with
    | none hserver hconn => exact hserver ▸ hs.underway
    | page y r hy hr hstep hconn => exact underway_step _ _ _ _ hs.underway hstep
    | hub e' he hstep hconn => exact underway_step _ _ _ _ hs.underway hstep
    | opens y first he hstep hconn => exact underway_step _ _ _ _ hs.underway hstep
  intro x hx
  -- with no connection before, this is the step that opens it
  cases hconn : s.conn with
  | none =>
    obtain ⟨first, _, hopen, huplink, _⟩ := Session.connects h hconn hx
    refine ⟨hopen, fun c hc => ?_⟩
    rw [RadioState.asked, huplink] at hc
    cases hc
  | some y =>
    obtain ⟨hopen, hasked⟩ := hs.online y hconn
    cases Session.page_step h hconn hopen with
    | reads choices frame uplink he huplink hradio hconn' hstep =>
      rw [hradio]
      exact ⟨hopen, fun c hc => hasked c (RadioState.asked_of_tail huplink hc)⟩
    | server e' he hreads hstep hradio hconn' =>
      rw [hradio]
      exact ⟨hopen, hasked⟩
    | page hserver hradio hconn' =>
      refine ⟨hradio.wsOpen.trans hopen, fun c hc => ?_⟩
      rcases hradio.asked with hnew | ⟨hsame, hchannel⟩
      · exact (Option.some.inj (hnew.symm.trans hc)).symm
      · exact (hasked c (hsame.symm.trans hc)).trans hchannel.symm
    | closes hserver hconn' => cases hx.symm.trans hconn'

/-- The hub reads the last frame in flight that asks for another channel, and admits it. -/
theorem Paged.reads_grant (hs : Paged s) (hx : s.conn = some x) {frame : ClientFrame}
    {uplink : List ClientFrame} {choices : Choices} (huplink : s.radio.uplink = frame :: uplink)
    (hlast : uplink.any ClientFrame.switches = false) (hgrants : s.hub.grants x frame = true)
    {server : Server FloorHistory} (h : serverStep floorObserver s.server
      (.serve (frame.request x choices)) = some server) :
    BoundFor s.radio.currentChannelID x server := by
  have hplain : ∀ frame ∈ uplink, frame.switches = false := fun frame hframe =>
    Bool.eq_false_of_not_eq_true (List.any_eq_false.mp hlast frame hframe)
  cases frame with
  | text msg =>
    cases msg with
    | joinChannel p =>
      have hasked : s.radio.asked = some p.value.channelID := by
        rw [RadioState.asked, huplink, List.filterMap_cons, RadioState.filterMap_target hplain]
        rfl
      rw [← (hs.online x hx).2 _ hasked]
      obtain ⟨hok, hadmits⟩ := Bool.and_eq_true_iff.mp hgrants
      exact bound_of_grant hok hadmits h
    | _ => cases hgrants
  | binary data => cases hgrants

/-- From such a step on the hub follows the page. -/
theorem Paged.settles (hs : Paged s) (hsettles : Settles s e = true) (hg : FollowsPage s e = true)
    (h : sessionStep s e = some t) : Tracking t := by
  refine ⟨hs.step h, fun x hx => ?_⟩
  cases hconn : s.conn with
  | none =>
    obtain ⟨first, _, _, _, hstep⟩ := Session.connects h hconn hx
    exact Or.inr (Or.inl (registering_of_connect hstep))
  | some y =>
    cases e with
    | opens z first =>
      simp only [sessionStep, hconn] at h
      cases h
    | receive choices =>
      obtain ⟨frame, uplink, huplink, hradio, hconn', hstep⟩ := Session.receive_eq h hconn
      obtain rfl := Option.some.inj (hx.symm.trans hconn')
      simp only [Settles, hconn, huplink, Bool.and_eq_true, Bool.not_eq_true'] at hsettles
      simp only [FollowsPage, hconn, huplink, hsettles.1, hsettles.2, Bool.not_true,
        Bool.false_or] at hg
      rw [hradio]
      exact Or.inr (Or.inr (hs.reads_grant hconn huplink hsettles.2 hg hstep))
    | _ => cases hsettles

/-- A step of the hub before the client is registered. -/
theorem Registering.server {server : Server FloorHistory} (hreg : Registering x s.server)
    (hx : s.conn = some x) {e : ServerEvent} (hg : FollowsPage s (.server e) = true)
    (h : serverStep floorObserver s.server e = some server) :
    s.radio.switching = true ∨ Registering x server ∨
      BoundFor s.radio.currentChannelID x server := by
  by_cases he : e.thread = some (.client x)
  swap
  · obtain ⟨first, k, hk, hstays⟩ := hreg
    exact Or.inr (Or.inl ⟨first, k, (serverStep_task h he).trans hk, hstays⟩)
  cases e with
  | serve r =>
    obtain ⟨_, hidle, _⟩ := serverStep_serve h
    rw [Option.some.inj he] at hidle
    exact absurd hidle hreg.not_idle
  | advance i =>
    obtain rfl : i = .client x := Option.some.inj he
    obtain ⟨first, k, hk, hstays⟩ := hreg
    simp only [FollowsPage, hk, Prog.nextCall, hx, ne_eq, not_true_eq_false, decide_false,
      Bool.false_or, Bool.or_eq_true, decide_eq_true_eq] at hg
    rcases hg with hswitching | hchannel
    · exact Or.inl hswitching
    · exact Or.inr (Or.inr (Registering.advance hk hstays hchannel h))
  | timerFires ch timer => cases he
  | tick d => cases he

/-- A step of the hub once the client is bound for a channel. -/
theorem BoundFor.server {c : ChannelID} {server : Server FloorHistory}
    (hbound : BoundFor c x s.server)
    (hu : Underway floorObserver s.server) {e : ServerEvent} (hreads : e.readsFrom x = false)
    (h : serverStep floorObserver s.server e = some server) :
    Registering x server ∨ BoundFor c x server := by
  by_cases he : e.thread = some (.client x)
  swap
  · exact Or.inr (hbound.elsewhere hu h he)
  cases e with
  | serve r =>
    obtain ⟨_, hidle, _⟩ := serverStep_serve h
    have hthread : r.thread = .client x := Option.some.inj he
    rw [hthread] at hidle
    cases r with
    | connect y first =>
      obtain rfl := Thread.client.inj hthread
      exact Or.inl (registering_of_connect h)
    | disconnect y =>
      obtain rfl := Thread.client.inj hthread
      exact Or.inr (bound_of_serve hthread moves_unregisterClient (hbound.idle hidle) h)
    | signal y msg choices => exact absurd (Thread.client.inj hthread) (of_decide_eq_false hreads)
    | audio y data => exact absurd (Thread.client.inj hthread) (of_decide_eq_false hreads)
    | totExpires ch timer => cases hthread
    | datagram data => cases hthread
  | advance i =>
    obtain rfl : i = .client x := Option.some.inj he
    exact Or.inr (hbound.advance h)
  | timerFires ch timer => cases he
  | tick d => cases he

/-- A step of the hub while no other channel is asked for. -/
theorem Tracking.server_bound (hs : Tracking s) (hx : s.conn = some x) {e : ServerEvent}
    {server : Server FloorHistory} (hreads : e.readsFrom x = false)
    (hg : FollowsPage s (.server e) = true)
    (h : serverStep floorObserver s.server e = some server) :
    s.radio.switching = true ∨ Registering x server ∨
      BoundFor s.radio.currentChannelID x server := by
  rcases hs.bound x hx with hswitching | hreg | hbound
  · exact Or.inl hswitching
  · exact hreg.server hx hg h
  · exact Or.inr (hbound.server hs.underway hreads h)

/-- The hub reads a frame. -/
theorem Tracking.reads_bound (hs : Tracking s) (hx : s.conn = some x) {frame : ClientFrame}
    {uplink : List ClientFrame} {choices : Choices} (huplink : s.radio.uplink = frame :: uplink)
    (hg : FollowsPage s (.receive choices) = true) {server : Server FloorHistory}
    (h : serverStep floorObserver s.server (.serve (frame.request x choices)) = some server) :
    uplink.any ClientFrame.switches = true ∨ BoundFor s.radio.currentChannelID x server := by
  cases hlater : uplink.any ClientFrame.switches with
  -- a frame that asks for a channel is still in flight
  | true => exact Or.inl rfl
  | false =>
    refine Or.inr ?_
    cases hswitches : frame.switches with
    | true =>
      simp only [FollowsPage, hx, huplink, hswitches, hlater, Bool.not_true, Bool.false_or] at hg
      exact hs.reads_grant hx huplink hlater hg h
    | false =>
      have hthread : (frame.request x choices).thread = .client x := by cases frame <;> rfl
      obtain ⟨_, hidle, _⟩ := serverStep_serve h
      rw [hthread] at hidle
      rcases hs.bound x hx with hswitching | hreg | hbound
      · -- neither this frame nor a later one asks for a channel
        rw [RadioState.switching, huplink, List.any_cons, hswitches, hlater] at hswitching
        cases hswitching
      · exact absurd hidle hreg.not_idle
      · exact bound_of_serve hthread (moves_request hswitches choices) (hbound.idle hidle) h

theorem Tracking.step (hs : Tracking s) (hg : FollowsPage s e = true)
    (h : sessionStep s e = some t) : Tracking t := by
  refine ⟨hs.toPaged.step h, fun x hx => ?_⟩
  cases hconn : s.conn with
  | none =>
    obtain ⟨first, _, _, _, hstep⟩ := Session.connects h hconn hx
    exact Or.inr (Or.inl (registering_of_connect hstep))
  | some y =>
    cases Session.page_step h hconn (hs.online y hconn).1 with
    | reads choices frame uplink he huplink hradio hconn' hstep =>
      obtain rfl := Option.some.inj (hx.symm.trans hconn')
      subst he
      rw [hradio]
      exact (hs.reads_bound hconn huplink hg hstep).imp id Or.inr
    | server e' he hreads hstep hradio hconn' =>
      obtain rfl := Option.some.inj (hx.symm.trans hconn')
      subst he
      rw [hradio]
      exact hs.server_bound hconn hreads hg hstep
    | page hserver hradio hconn' =>
      obtain rfl := Option.some.inj (hx.symm.trans hconn')
      rw [hserver]
      rcases hradio.switching with hnew | ⟨hsame, hchannel⟩
      · exact Or.inl hnew
      · -- the page asks for nothing new and stays on its channel
        rw [hsame, hchannel]
        exact hs.bound x hconn
    | closes hserver hconn' => cases hx.symm.trans hconn'

theorem Tracking.still (hs : Tracking s) (hstill : s.Still x) :
    s.radio.currentChannelID = (s.hub.heap x).currentChannelID := by
  -- with no frame in flight and an idle thread, only the last of the three is left
  rcases hs.bound x hstill.conn with hswitching | hreg | hbound
  · rw [RadioState.switching, hstill.uplink] at hswitching
    cases hswitching
  · exact absurd hstill.idle hreg.not_idle
  · exact (hbound.idle hstill.idle).symm

end Invariant

/-- From a connection, or from the last frame that asks for a channel, on: if the hub puts the
client on the channel of the page, the two agree whenever no message is in flight. -/
theorem channel_agrees {cfg : Config} (hcfg : cfg.defaultChannels ≠ [])
    {recorder : Option AudioRecorder} {roipRelay : Bool} {heap : Clients} {now : ℤ}
    {radio : RadioState} {before es : List SessionEvent} {e : SessionEvent} {s t : Session}
    {x : ClientRef}
    (hbefore : Run sessionStep (Session.init radio
      (Server.init (newHub cfg recorder roipRelay heap now) FloorHistory.init)) before s)
    (hrun : Run sessionStep s (e :: es) t) (hsettles : Settles s e = true)
    (hfollows : Guarded sessionStep (fun s e => FollowsPage s e = true) s (e :: es))
    (hstill : t.Still x) : t.radio.currentChannelID = (t.hub.heap x).currentChannelID := by
  have hpaged : Paged s :=
    hbefore.invariant (fun _ _ _ hs h => hs.step h)
      ⟨underway_init floorObserver _ hcfg recorder roipRelay heap now, fun y hy => by cases hy⟩
  obtain ⟨u, hfirst, hrest⟩ := Run.cons_iff.mp hrun
  obtain ⟨hg, hgs⟩ := hfollows u hfirst
  -- the first event settles the channel, and every later one tracks it
  have htracking := hrest.invariant_of_guarded (fun _ _ _ hs hg h => hs.step hg h) hgs
    (hpaged.settles hsettles hg hfirst)
  exact htracking.still hstill

/-- The hub registers client `x` of the page's new connection. -/
def connection (x : ClientRef) : List SessionEvent :=
  .opens x 0 :: List.replicate 10 (.server (.advance (.client x)))

/-- `WritePump` writes `n` frames of `send`, and the page hears them. -/
def heard (n : ℕ) : List SessionEvent :=
  (List.replicate n [.poll, .write .send]).flatten ++ List.replicate n .deliver

/-- The page creates a channel, and the hub moves it there. -/
def createdChannel : List SessionEvent :=
  connection 0 ++ [.poll, .submitChannel { name := "TAC 9", isPrivate := false, password := "" }] ++
    answered 20 ++ heard 7

/-- Unit 1 creates a private channel, and the page, which hears of it, is asked for its password. -/
def privateChannel (password : String) : List SessionEvent :=
  connection 0 ++ (uninterrupted (.connect 1 0) 10).map .server ++
    (uninterrupted (.signal 1 (.createChannel
      { value := { name := "COMMAND", isPrivate := true, password := "s3cret" } }) {}) 20).map
      .server ++
    [.poll] ++ heard 6 ++ [.page (.changeChannel 9 (some password))]

/-- The page goes to channel 2, loses its connection and gets another. -/
def reconnected : List SessionEvent :=
  connection 0 ++ [.poll] ++ heard 3 ++ [.page (.changeChannel 2 none)] ++ answered 17 ++ heard 3 ++
    [.closes, .server (.serve (.disconnect 0))] ++
    List.replicate 7 (.server (.advance (.client 0))) ++ connection 1 ++ [.poll] ++ heard 3

/-- A page that creates a channel is moved there without knowing, a page whose join is refused has
gone there already, and a page that reconnects is back on channel 1 without knowing. -/
theorem channel_agrees_fails :
    (∃ t, Run sessionStep freshSession createdChannel t ∧ t.Still 0 ∧
      t.radio.currentChannelID = 1 ∧ (t.hub.heap 0).currentChannelID = 9) ∧
    (∃ t, Run sessionStep freshSession (privateChannel "guess" ++ answered 3 ++ heard 1) t ∧
      t.Still 0 ∧ t.radio.currentChannelID = 9 ∧ (t.hub.heap 0).currentChannelID = 1) ∧
    ∃ t, Run sessionStep freshSession reconnected t ∧ t.Still 1 ∧
      t.radio.currentChannelID = 2 ∧ (t.hub.heap 1).currentChannelID = 1 := by
  refine ⟨?_, ?_, ?_⟩
  · exact ⟨_, run_get sessionStep freshSession createdChannel (by decide +kernel),
      by constructor <;> decide +kernel, by decide +kernel, by decide +kernel⟩
  · exact ⟨_, run_get sessionStep freshSession _ (by decide +kernel),
      by constructor <;> decide +kernel, by decide +kernel, by decide +kernel⟩
  · exact ⟨_, run_get sessionStep freshSession reconnected (by decide +kernel),
      by constructor <;> decide +kernel, by decide +kernel, by decide +kernel⟩

/-- With the right password the page is let in. -/
theorem channel_agrees_privateChannel :
    ∃ t, Run sessionStep freshSession (privateChannel "s3cret" ++ answered 17 ++ heard 3) t ∧
      (t.hub.heap 0).currentChannelID = 9 := by
  have hrun := run_get sessionStep freshSession (privateChannel "s3cret" ++ answered 17 ++ heard 3)
    (by decide +kernel)
  refine ⟨_, hrun, ?_⟩
  rw [← channel_agrees (x := 0) (by decide) (Run.nil freshSession) hrun rfl (by decide +kernel)
    (by constructor <;> decide +kernel)]
  decide +kernel

end TwoWayRadio

import TwoWayRadio.FloorAnswers
import TwoWayRadio.PageKeying

/-! Floor agreement: what a unit believes about its own transmission against what the hub does,
over one session on one channel. -/
namespace TwoWayRadio
open Interleaving Transition

namespace Session

/-- The presses and releases of unit `x` that the hub has still to act on, oldest first. -/
def keying (x : ClientRef) (s : Session) : List Bool :=
  (s.server.history.stance (.client x)).keying ++ s.radio.keying

/-- A status of channel `c` that is on its way to unit `x` or about to be sent. -/
def Due (c : ChannelID) (x : ClientRef) (st : FloorStatus) (s : Session) : Prop :=
  (∃ i, (s.server.history.stance i).OwesStatus c x st) ∨
    ∃ frame ∈ s.downlink, frame.status c = some st

/-- Nothing is in flight between the page and the hub, and no handler has a status to send. -/
structure Quiet (x : ClientRef) (s : Session) : Prop where
  uplink : s.radio.uplink = []
  downlink : s.downlink = []
  idle : s.server.pool.Idle (.client x)
  told : ∀ i c st, ¬ (s.server.history.stance i).OwesStatus c x st

end Session

/-- A denial or timeout that the page hears with its button down answers its last press: the hub
has read that press, and the floor is not the unit's. -/
def AnswersLastPress (s : Session) (e : SessionEvent) : Prop :=
  e = .deliver → ∀ x ∈ s.conn, ∀ frame ∈ s.wire.head?,
    ∀ st ∈ frame.status s.radio.currentChannelID, st.unkeys = true → s.radio.isPTTDown = true →
      s.hub.holder s.radio.currentChannelID ≠ some x ∧ true ∉ s.keying x

instance (s : Session) (e : SessionEvent) : Decidable (AnswersLastPress s e) :=
  inferInstanceAs (Decidable (e = .deliver → ∀ x ∈ s.conn, ∀ frame ∈ s.wire.head?,
    ∀ st ∈ frame.status s.radio.currentChannelID, st.unkeys = true → s.radio.isPTTDown = true →
      s.hub.holder s.radio.currentChannelID ≠ some x ∧ true ∉ s.keying x))

/-- The events of one session of unit `x` without channel changes. -/
def SessionEvent.within (x : ClientRef) : SessionEvent → Bool
  | page e => !e.retunes
  | submitChannel _ | opens .. | closes => false
  | server (.serve r) => r.thread ≠ .client x
  | _ => true

namespace Session

variable {s t : Session} {e : ServerEvent} {c : ChannelID} {x : ClientRef} {st : FloorStatus}

theorem mem_downlink {frame : Frame} :
    frame ∈ s.downlink ↔ frame ∈ s.highPri ∨ frame ∈ s.send ∨ frame ∈ s.wire := by
  rw [downlink, List.append_assoc, List.mem_append, List.mem_append]

/-- A message to the unit is put into one of its queues. -/
theorem mem_enqueued {op : HubOp} {h : Hub} {msg : Signal} (hm : op.message = some msg)
    (hx : x ∈ op.receivers h) :
    ∃ queue, Frame.json msg h.unixMilli ∈ enqueued (some x) queue h (op.run h).2 := by
  obtain ⟨sent, hsent, ⟨msg', queue, hm', heq⟩ | ⟨hnone, _⟩⟩ := HubOp.outbox_run op h
  · rw [hm] at hm'
    obtain rfl := Option.some.inj hm'
    refine ⟨queue, ?_⟩
    show _ ∈ ((op.run h).2.outbox.drop h.outbox.length).filterMap (Delivery.queued x queue)
    rw [hsent, List.drop_left]
    refine List.mem_filterMap.mpr ⟨.enqueue x queue (.json msg h.unixMilli), ?_, ?_⟩
    · rw [heq]
      exact List.mem_map.mpr ⟨x, hx, rfl⟩
    · exact if_pos ⟨rfl, rfl⟩
  · rw [hm] at hnone
    cases hnone

/-- A frame that `WritePump` takes off the priority queue stays on its way to the page. -/
theorem downlink_of_highPri {frame : Frame} (hhigh : s.highPri = frame :: t.highPri)
    (hsend : t.send = s.send) (hwire : t.wire = s.wire ++ [frame]) {frame' : Frame}
    (h : frame' ∈ s.downlink) : frame' ∈ t.downlink := by
  rw [mem_downlink, hsend, hwire]
  rcases mem_downlink.mp h with hmem | hmem | hmem
  · rw [hhigh] at hmem
    rcases List.mem_cons.mp hmem with rfl | hmem
    · exact Or.inr (Or.inr (List.mem_append_right _ (List.mem_singleton_self _)))
    · exact Or.inl hmem
  · exact Or.inr (Or.inl hmem)
  · exact Or.inr (Or.inr (List.mem_append_left _ hmem))

/-- So does one that it takes off the other. -/
theorem downlink_of_send {frame : Frame} (hsend : s.send = frame :: t.send)
    (hhigh : t.highPri = s.highPri) (hwire : t.wire = s.wire ++ [frame]) {frame' : Frame}
    (h : frame' ∈ s.downlink) : frame' ∈ t.downlink := by
  rw [mem_downlink, hhigh, hwire]
  rcases mem_downlink.mp h with hmem | hmem | hmem
  · exact Or.inl hmem
  · rw [hsend] at hmem
    rcases List.mem_cons.mp hmem with rfl | hmem
    · exact Or.inr (Or.inr (List.mem_append_right _ (List.mem_singleton_self _)))
    · exact Or.inr (Or.inl hmem)
  · exact Or.inr (Or.inr (List.mem_append_left _ hmem))

/-- A status stays due until the page hears it. -/
theorem due_serve (hs : FloorHistory.Sound (fun _ _ => True) s.hub s.server.pool.task
      s.server.history) (hconn : s.conn = some x) (h : s.serve e = some t) (hd : s.Due c x st) :
    t.Due c x st := by
  obtain ⟨hstep, _, _, hwire, hhigh, hsend⟩ := serve_eq h
  rcases hd with ⟨i, howes⟩ | ⟨frame, hframe, hst⟩
  · by_cases hi : e.thread = some i
    swap
    · refine Or.inl ⟨i, ?_⟩
      have hstance := FloorHistory.stance_of_unmoved floorObserver_tracks hstep hi
      rw [show t.server.history.stance i = _ from hstance]
      exact howes
    cases e with
    | serve r =>
      -- a handler that has something to send is not idle
      obtain rfl : r.thread = i := Option.some.inj hi
      obtain ⟨_, hidle, _⟩ := serverStep_serve hstep
      have hfollows := hs.follows r.thread
      rw [hidle] at hfollows
      rw [show s.server.history.stance r.thread = .fresh from hfollows] at howes
      exact howes.elim
    | advance j =>
      obtain rfl : j = i := Option.some.inj hi
      obtain ⟨op, k, hk, _, hhub, hhist, _⟩ := serverStep_advance hstep
      have hfollows := hs.follows j
      rw [hk] at hfollows
      rcases Stance.owesStatus_next (h := s.hub) hfollows.1 howes (op.run s.hub).1 with
        hnext | ⟨p, hm, hp, hstatus, hx⟩
      · refine Or.inl ⟨j, ?_⟩
        rw [hhist]
        show ((s.server.history.sees j op (op.run s.hub).1 s.hub).stance j).OwesStatus c x st
        rw [FloorHistory.sees_stance_self]
        exact hnext
      · -- the status goes out with this call, and into a queue of the page
        obtain ⟨queue, hmem⟩ := mem_enqueued hm hx
        rw [hconn, show t.hub = (op.run s.hub).2 from hhub] at hhigh hsend
        refine Or.inr ⟨.json (.floorStatus p) s.hub.unixMilli, mem_downlink.mpr ?_, ?_⟩
        · cases queue with
          | highPri => exact Or.inl (hhigh ▸ List.mem_append_right _ hmem)
          | send => exact Or.inr (Or.inl (hsend ▸ List.mem_append_right _ hmem))
        · exact (if_pos hp).trans (congrArg some hstatus)
    | timerFires ch timer => cases hi
    | tick d => cases hi
  · refine Or.inr ⟨frame, mem_downlink.mpr ?_, hst⟩
    rw [hhigh, hsend, hwire]
    rcases mem_downlink.mp hframe with hmem | hmem | hmem
    · exact Or.inl (List.mem_append_left _ hmem)
    · exact Or.inr (Or.inl (List.mem_append_left _ hmem))
    · exact Or.inr (Or.inr hmem)

/-- A status that is due stays due, unless it is the one that the page hears. -/
theorem Due.deliver {frame : Frame} {wire : List Frame} {r : RadioState} (hd : s.Due c x st)
    (hwire : s.wire = frame :: wire) :
    frame.status c = some st ∨ Session.Due c x st { s with wire := wire, radio := r } := by
  rcases hd with howes | ⟨frame', hframe', hst⟩
  · exact Or.inr (Or.inl howes)
  · rcases mem_downlink.mp hframe' with hmem | hmem | hmem
    · exact Or.inr (Or.inr ⟨frame', mem_downlink.mpr (Or.inl hmem), hst⟩)
    · exact Or.inr (Or.inr ⟨frame', mem_downlink.mpr (Or.inr (Or.inl hmem)), hst⟩)
    · rw [hwire] at hmem
      rcases List.mem_cons.mp hmem with rfl | hmem
      · exact Or.inl hst
      · exact Or.inr (Or.inr ⟨frame', mem_downlink.mpr (Or.inr (Or.inr hmem)), hst⟩)

end Session

/-- The invariant of a session of unit `x` on channel `c`: presses and releases in flight end with
the last thing the user did, a floor that `x` holds is on its way to being used or released, and
a pressed button to the floor or to being let go. -/
structure Agreeing (c : ChannelID) (x : ClientRef) (s : Session) : Prop where
  conn : s.conn = some x
  wsOpen : s.radio.wsOpen = true
  hold : s.radio.pttMode = .hold
  channel : s.radio.currentChannelID = c
  sent : ∀ frame ∈ s.radio.uplink, frame.switches = false
  tuned : Tuned c x s.server
  keyed : s.radio.isTransmitting = true → s.radio.isPTTDown = true
  last : ∀ d, (s.keying x).getLast? = some d → d = s.radio.isPTTDown
  held : s.hub.holder c = some x → false ∈ s.keying x ∨
    (s.radio.isPTTDown = true ∧ (s.radio.isTransmitting = true ∨ s.Due c x .granted))
  pressed : s.radio.isPTTDown = true → s.hub.holder c = some x ∨ true ∈ s.keying x ∨
    ∃ st, FloorStatus.unkeys st = true ∧ s.Due c x st

theorem ClientFrame.leaves_request {frame : ClientFrame} (h : frame.switches = false)
    (x : ClientRef) (choices : Choices) : (frame.request x choices).leaves = false := by
  cases frame with
  | text msg => cases msg <;> first | rfl | cases h
  | binary data => rfl

namespace Agreeing

variable {s t : Session} {e : ServerEvent} {c : ChannelID} {x : ClientRef}

/-- The user presses or releases the button. -/
theorem press {r : RadioState} (hs : Agreeing c x s) (hsame : s.radio.SameSession r)
    (hkeying : s.radio.Keying r) : Agreeing c x { s with radio := r } := by
  have hsent : ∀ frame ∈ r.uplink, frame.switches = false := fun frame hframe =>
    (hsame.mem_uplink hframe).elim (hs.sent frame) id
  have happend : ∀ {d : Bool}, r.keying = s.radio.keying ++ [d] →
      Session.keying x { s with radio := r } = s.keying x ++ [d] := fun hd => by
    show _ ++ r.keying = _
    rw [hd, ← List.append_assoc]
    rfl
  -- what the user does puts a press or a release at the end of those in flight, or nothing
  cases hkeying with
  | same hdown htx hr =>
    have hsame' : Session.keying x { s with radio := r } = s.keying x := by
      show _ ++ r.keying = _
      rw [hr]
      rfl
    refine ⟨hs.conn, hsame.wsOpen.trans hs.wsOpen, hsame.pttMode.trans hs.hold,
      hsame.currentChannelID.trans hs.channel, hsent, hs.tuned, ?_, ?_, ?_, ?_⟩ <;>
      simp only [hsame', hdown, htx]
    · exact hs.keyed
    · exact hs.last
    · exact hs.held
    · exact hs.pressed
  | pressed hup hdown htx hr =>
    refine ⟨hs.conn, hsame.wsOpen.trans hs.wsOpen, hsame.pttMode.trans hs.hold,
      hsame.currentChannelID.trans hs.channel, hsent, hs.tuned, fun hon => ?_, fun d hd => ?_,
      fun hheld => ?_, fun _ => ?_⟩
    · exact absurd (htx.symm.trans hon) Bool.false_ne_true
    · rw [happend hr, List.getLast?_concat] at hd
      exact (Option.some.inj hd).symm.trans hdown.symm
    · -- a floor held with the button up has a release in flight already
      rcases hs.held hheld with hmem | ⟨hdown', _⟩
      · refine Or.inl ?_
        rw [happend hr]
        exact List.mem_append_left _ hmem
      · exact absurd (hup.symm.trans hdown') Bool.false_ne_true
    · refine Or.inr (Or.inl ?_)
      rw [happend hr]
      exact List.mem_append_right _ (List.mem_singleton_self _)
  | released hdown hup htx hr =>
    refine ⟨hs.conn, hsame.wsOpen.trans hs.wsOpen, hsame.pttMode.trans hs.hold,
      hsame.currentChannelID.trans hs.channel, hsent, hs.tuned, fun hon => ?_, fun d hd => ?_,
      fun _ => Or.inl ?_, fun hdown' => ?_⟩
    · exact absurd (htx.symm.trans hon) Bool.false_ne_true
    · rw [happend hr, List.getLast?_concat] at hd
      exact (Option.some.inj hd).symm.trans hup.symm
    · rw [happend hr]
      exact List.mem_append_right _ (List.mem_singleton_self _)
    · exact absurd (hup.symm.trans hdown') Bool.false_ne_true

/-- `WritePump` moves a frame on. -/
theorem pump (hs : Agreeing c x s) (hradio : t.radio = s.radio) (hserver : t.server = s.server)
    (hconn : t.conn = s.conn) (hframes : ∀ frame, frame ∈ s.downlink → frame ∈ t.downlink) :
    Agreeing c x t := by
  have hdue : ∀ {st}, s.Due c x st → t.Due c x st := by
    rintro st (howes | ⟨frame, hframe, hst⟩)
    · exact Or.inl (hserver ▸ howes)
    · exact Or.inr ⟨frame, hframes frame hframe, hst⟩
  have hkeying : t.keying x = s.keying x := by
    rw [Session.keying, Session.keying, hradio, hserver]
  have hhub : t.hub = s.hub := by rw [Session.hub, Session.hub, hserver]
  refine ⟨hconn.trans hs.conn, hradio ▸ hs.wsOpen, hradio ▸ hs.hold, hradio ▸ hs.channel,
    hradio ▸ hs.sent, hserver ▸ hs.tuned, hradio ▸ hs.keyed, ?_, fun hheld => ?_, fun hdown => ?_⟩
  · rw [hkeying, hradio]
    exact hs.last
  · rw [hkeying, hradio]
    exact (hs.held (hhub ▸ hheld)).imp id fun h => ⟨h.1, h.2.imp id hdue⟩
  · rw [hkeying, hhub]
    rcases hs.pressed (hradio ▸ hdown) with hheld | hmem | ⟨st, hst, hd⟩
    · exact Or.inl hheld
    · exact Or.inr (Or.inl hmem)
    · exact Or.inr (Or.inr ⟨st, hst, hdue hd⟩)

/-- The page hears a frame. -/
theorem deliver {frame : Frame} {wire : List Frame} (hs : Agreeing c x s)
    (hwire : s.wire = frame :: wire) (hanswers : AnswersLastPress s .deliver) :
    Agreeing c x { s with wire := wire, radio := s.radio.onMessage frame } := by
  obtain ⟨hkeys, hhears⟩ := RadioState.onMessage_hears frame hs.wsOpen hs.hold hs.keyed
  have hsame := s.radio.onMessage_same frame
  -- a denial or timeout that comes in while the button is down answers the last press
  have hanswers' : ∀ st, frame.status c = some st → st.unkeys = true →
      s.radio.isPTTDown = true → s.hub.holder c ≠ some x ∧ true ∉ s.keying x := by
    intro st hst
    rw [← hs.channel] at hst ⊢
    exact hanswers rfl x hs.conn frame (by rw [hwire]; rfl) st hst
  rw [hs.channel] at hhears
  generalize s.radio.onMessage frame = r at hsame hkeys hhears ⊢
  have hkeying : Session.keying x { s with wire := wire, radio := r } = s.keying x := by
    show _ ++ r.keying = _
    rw [hkeys]
    rfl
  have hdue : ∀ {st}, s.Due c x st → frame.status c = some st ∨
      Session.Due c x st { s with wire := wire, radio := r } :=
    fun hd => hd.deliver hwire
  have hsent : ∀ frame ∈ r.uplink, frame.switches = false := fun frame hframe =>
    (hsame.mem_uplink hframe).elim (hs.sent frame) id
  -- what a status that does not take the key leaves due
  have hpressed : (∀ st, frame.status c = some st → st.unkeys = false) →
      s.radio.isPTTDown = true → s.hub.holder c = some x ∨ true ∈ s.keying x ∨
        ∃ st, FloorStatus.unkeys st = true ∧
          Session.Due c x st { s with wire := wire, radio := r } := by
    intro hquiet hdown
    rcases hs.pressed hdown with hheld | hmem | ⟨st, hst, hd⟩
    · exact Or.inl hheld
    · exact Or.inr (Or.inl hmem)
    · rcases hdue hd with hheard | hd
      · exact absurd ((hquiet st hheard).symm.trans hst) Bool.false_ne_true
      · exact Or.inr (Or.inr ⟨st, hst, hd⟩)
  have hagree : (r.isTransmitting = true → r.isPTTDown = true) →
      (∀ d, (s.keying x).getLast? = some d → d = r.isPTTDown) →
      (s.hub.holder c = some x → false ∈ s.keying x ∨ (r.isPTTDown = true ∧
        (r.isTransmitting = true ∨
          Session.Due c x .granted { s with wire := wire, radio := r }))) →
      (r.isPTTDown = true → s.hub.holder c = some x ∨ true ∈ s.keying x ∨
        ∃ st, FloorStatus.unkeys st = true ∧
          Session.Due c x st { s with wire := wire, radio := r }) →
      Agreeing c x { s with wire := wire, radio := r } := fun hkeyed hlast hheld hpressed =>
    ⟨hs.conn, hsame.wsOpen.trans hs.wsOpen, hsame.pttMode.trans hs.hold,
      hsame.currentChannelID.trans hs.channel, hsent, hs.tuned, hkeyed, hkeying ▸ hlast,
      hkeying ▸ hheld, hkeying ▸ hpressed⟩
  cases hhears with
  | granted hst hdown hdown' htx =>
    refine hagree (fun _ => hdown') (fun d hd => ?_) (fun hheld => ?_) fun _ => ?_
    · exact (hs.last d hd).trans (hdown.trans hdown'.symm)
    · exact (hs.held hheld).imp id fun _ => ⟨hdown', Or.inl htx⟩
    · exact hpressed (fun st h => by rw [hst] at h; cases h; rfl) hdown
  | unkeyed st hst hunkeys hup htx =>
    have hoff : ∀ {b : Bool}, b = false → ¬ b = true := fun h h' =>
      absurd (h.symm.trans h') Bool.false_ne_true
    refine hagree (fun hon => absurd hon (hoff htx)) (fun d hd => ?_) (fun hheld => ?_)
      fun hdown => absurd hdown (hoff hup)
    · cases hdown : s.radio.isPTTDown with
      | false => exact (hs.last d hd).trans (hdown.trans hup.symm)
      | true =>
        -- the last press has been read, so nothing is left in flight
        have hd' := (hs.last d hd).trans hdown
        refine absurd ?_ (hanswers' st hst hunkeys hdown).2
        exact hd' ▸ List.mem_of_getLast? hd
    · rcases hs.held hheld with hmem | ⟨hdown, _⟩
      · exact Or.inl hmem
      · exact absurd hheld (hanswers' st hst hunkeys hdown).1
  | same hgranted hst hdown htx =>
    refine hagree ?_ ?_ (fun hheld => ?_) fun hdown' => hpressed hst (hdown ▸ hdown')
    · rw [hdown, htx]
      exact hs.keyed
    · rw [hdown]
      exact hs.last
    · refine (hs.held hheld).imp id fun ⟨hdown', hor⟩ => ⟨hdown.trans hdown', ?_⟩
      rcases hor with hon | hd
      · exact Or.inl (htx.trans hon)
      · rcases hdue hd with hheard | hd
        · exact absurd ((hgranted hheard).symm.trans hdown') Bool.false_ne_true
        · exact Or.inr hd

/-- Another thread of the hub moves. -/
theorem others (hs : Agreeing c x s) (h : s.serve e = some t)
    (he : e.thread ≠ some (.client x)) : Agreeing c x t := by
  obtain ⟨hstep, hradio, hconn, _⟩ := Session.serve_eq h
  have hdue : ∀ {st}, s.Due c x st → t.Due c x st :=
    Session.due_serve hs.tuned.sound hs.conn h
  have hkeying : t.keying x = s.keying x := by
    have hstance := FloorHistory.stance_of_unmoved floorObserver_tracks hstep he
    rw [Session.keying, Session.keying, hradio,
      show t.server.history.stance (.client x) = _ from hstance]
    rfl
  obtain ⟨hgains, hloses⟩ := hs.tuned.others hstep he
  refine ⟨hconn.trans hs.conn, hradio ▸ hs.wsOpen, hradio ▸ hs.hold, hradio ▸ hs.channel,
    hradio ▸ hs.sent, hs.tuned.elsewhere hstep he, hradio ▸ hs.keyed, ?_, fun hheld => ?_,
    fun hdown => ?_⟩
  · rw [hkeying, hradio]
    exact hs.last
  · rw [hkeying, hradio]
    exact (hs.held (hgains hheld)).imp id fun h => ⟨h.1, h.2.imp id hdue⟩
  · rw [hkeying]
    rcases hs.pressed (hradio ▸ hdown) with hheld | hmem | ⟨st, hst, hd⟩
    · rcases hloses hheld with hheld | ⟨i, st, hst, howes⟩
      · exact Or.inl hheld
      · exact Or.inr (Or.inr ⟨st, hst, Or.inl ⟨i, howes⟩⟩)
    · exact Or.inr (Or.inl hmem)
    · exact Or.inr (Or.inr ⟨st, hst, hdue hd⟩)

/-- A handler of the unit makes its next call. -/
theorem own (hs : Agreeing c x s) (h : s.serve (.advance (.client x)) = some t) :
    Agreeing c x t := by
  obtain ⟨hstep, hradio, hconn, _⟩ := Session.serve_eq h
  have hdue : ∀ {st}, s.Due c x st → t.Due c x st :=
    Session.due_serve hs.tuned.sound hs.conn h
  have hagree : (∀ d, (t.keying x).getLast? = some d → d = s.radio.isPTTDown) →
      (t.hub.holder c = some x → false ∈ t.keying x ∨ (s.radio.isPTTDown = true ∧
        (s.radio.isTransmitting = true ∨ t.Due c x .granted))) →
      (s.radio.isPTTDown = true → t.hub.holder c = some x ∨ true ∈ t.keying x ∨
        ∃ st, FloorStatus.unkeys st = true ∧ t.Due c x st) → Agreeing c x t :=
    fun hlast hheld hpressed => ⟨hconn.trans hs.conn, hradio ▸ hs.wsOpen, hradio ▸ hs.hold,
      hradio ▸ hs.channel, hradio ▸ hs.sent, hs.tuned.step hstep fun _ => ServerEvent.noConfusion,
      hradio ▸ hs.keyed, hradio ▸ hlast, hradio ▸ hheld, hradio ▸ hpressed⟩
  -- a floor call takes the oldest press or release
  have htail : ∀ {d : Bool}, (s.server.history.stance (.client x)).keying = [d] →
      (t.server.history.stance (.client x)).keying = [] →
      s.keying x = d :: t.keying x := fun hd hdone => by
    rw [Session.keying, Session.keying, hd, hdone, hradio]
    rfl
  have hlast : ∀ {d : Bool}, s.keying x = d :: t.keying x →
      ∀ d', (t.keying x).getLast? = some d' → d' = s.radio.isPTTDown := by
    intro d hcons d' hd'
    refine hs.last d' ?_
    rw [hcons, List.getLast?_cons, hd']
    rfl
  -- what is still in flight ends with the button as it is now
  have hfirst : ∀ {d : Bool}, s.keying x = d :: t.keying x → s.radio.isPTTDown ≠ d →
      s.radio.isPTTDown ∈ t.keying x := by
    intro d hcons hne
    cases hkeys : (t.keying x).getLast? with
    | none =>
      rw [List.getLast?_eq_none_iff.mp hkeys] at hcons
      exact absurd (hs.last d (by rw [hcons]; rfl)).symm hne
    | some d' =>
      rw [← hlast hcons d' hkeys]
      exact List.mem_of_getLast? hkeys
  cases hs.tuned.floorCall hstep with
  | other hkeying hholder =>
    have hsame : t.keying x = s.keying x := by
      rw [Session.keying, Session.keying, hradio, hkeying]
    refine hagree ?_ ?_ ?_ <;> rw [hsame]
    · exact hs.last
    · intro hheld
      exact (hs.held (hholder.symm.trans hheld)).imp id fun h => ⟨h.1, h.2.imp id hdue⟩
    · intro hdown
      rcases hs.pressed hdown with hheld | hmem | ⟨st, hst, hd⟩
      · exact Or.inl (hholder.trans hheld)
      · exact Or.inr (Or.inl hmem)
      · exact Or.inr (Or.inr ⟨st, hst, hdue hd⟩)
  | granted hkeying hdone hholder howes =>
    have hcons := htail hkeying hdone
    refine hagree (hlast hcons) (fun _ => ?_) fun _ => Or.inl hholder
    cases hdown : s.radio.isPTTDown with
    | true => exact Or.inr ⟨rfl, Or.inr (Or.inl ⟨_, howes⟩)⟩
    | false => exact Or.inl (hdown ▸ hfirst hcons (by rw [hdown]; exact Bool.false_ne_true))
  -- the denial itself is due now
  | denied hkeying hdone hholder howes =>
    exact hagree (hlast (htail hkeying hdone)) (fun hheld => absurd hheld hholder)
      fun _ => Or.inr (Or.inr ⟨.denied, rfl, Or.inl ⟨_, howes⟩⟩)
  | released hkeying hdone hholder =>
    have hcons := htail hkeying hdone
    refine hagree (hlast hcons) (fun hheld => absurd hheld hholder) fun hdown => ?_
    refine Or.inr (Or.inl (hdown ▸ hfirst hcons ?_))
    rw [hdown]
    exact Bool.false_ne_true.symm

/-- A handler starts with the press or release it was sent. -/
theorem keying_request (frame : ClientFrame) (choices : Choices) :
    (frame.request x choices).stance.keying = frame.keying.toList := by
  cases frame with
  | text msg =>
    cases msg with
    | identify p =>
      show (if p.ok ∧ p.value.callsign ≠ "" then Stance.identifying x else .fresh).keying = []
      split_ifs <;> rfl
    | _ => rfl
  | binary data => rfl

/-- `ReadPump` hands the hub the oldest frame of the page. -/
theorem receive {frame : ClientFrame} {uplink : List ClientFrame} {choices : Choices}
    (hs : Agreeing c x s) (huplink : s.radio.uplink = frame :: uplink)
    (h : Session.serve (.serve (frame.request x choices))
      { s with radio := { s.radio with uplink := uplink } } = some t) : Agreeing c x t := by
  obtain ⟨hstep, hradio, hconn, _⟩ := Session.serve_eq h
  have hthread : (frame.request x choices).thread = .client x := by cases frame <;> rfl
  obtain ⟨_, hidle, _, hshared, _⟩ := serverStep_serve hstep
  rw [hthread] at hidle
  have hdue : ∀ {st}, s.Due c x st → t.Due c x st :=
    Session.due_serve (s := { s with radio := { s.radio with uplink := uplink } })
      hs.tuned.sound hs.conn h
  have hhub : t.hub = s.hub := by
    rw [Session.hub, Server.hub, hshared]
    rfl
  -- the frame is taken off the queue, and its keying becomes that of the handler
  have hfresh : s.server.history.stance (.client x) = .fresh := by
    have hfollows := hs.tuned.sound.follows (.client x)
    rw [show s.server.pool.task (.client x) = .ret () from hidle] at hfollows
    exact hfollows
  have hstance : t.server.history.stance (.client x) = (frame.request x choices).stance := by
    rw [Server.history, hshared, ← hthread]
    exact Function.update_self ..
  have hkeying : t.keying x = s.keying x := by
    rw [Session.keying, Session.keying, hstance, keying_request, hfresh, hradio]
    show frame.keying.toList ++ uplink.filterMap ClientFrame.keying =
      s.radio.uplink.filterMap ClientFrame.keying
    rw [huplink, List.filterMap_cons]
    cases frame.keying <;> rfl
  have hmem : frame ∈ s.radio.uplink := by rw [huplink]; exact List.mem_cons_self
  refine ⟨hconn.trans hs.conn, hradio ▸ hs.wsOpen, hradio ▸ hs.hold, hradio ▸ hs.channel, ?_,
    hs.tuned.step hstep ?_, hradio ▸ hs.keyed, ?_, fun hheld => ?_, fun hdown => ?_⟩
  · rw [hradio]
    intro frame' hframe'
    exact hs.sent frame' (by rw [huplink]; exact List.mem_cons_of_mem _ hframe')
  · rintro r ⟨rfl⟩ _
    exact ClientFrame.leaves_request (hs.sent frame hmem) x choices
  · rw [hkeying, hradio]
    exact hs.last
  · rw [hkeying, hradio]
    exact (hs.held (hhub ▸ hheld)).imp id fun h => ⟨h.1, h.2.imp id hdue⟩
  · rw [hkeying, hhub]
    rcases hs.pressed (by rw [hradio] at hdown; exact hdown) with hheld | hmem | ⟨st, hst, hd⟩
    · exact Or.inl hheld
    · exact Or.inr (Or.inl hmem)
    · exact Or.inr (Or.inr ⟨st, hst, hdue hd⟩)

/-- Any other message of the page. -/
theorem sends {msg : ClientSignal} (hs : Agreeing c x s) (hmsg : msg.steers = false) :
    Agreeing c x { s with radio := s.radio.wsSend [.text msg] } := by
  have hplain : (ClientFrame.text msg).switches = false ∧ (ClientFrame.text msg).keying = none := by
    cases msg <;> first | exact ⟨rfl, rfl⟩ | cases hmsg
  refine hs.press ((RadioState.SameSession.refl s.radio).wsSend fun frame hframe => ?_)
    (.same (RadioState.wsSend_isPTTDown ..) (RadioState.wsSend_isTransmitting ..) ?_)
  · rw [List.mem_singleton.mp hframe]
    exact hplain.1
  · rw [RadioState.keying_wsSend hs.wsOpen, List.filterMap_cons, hplain.2]
    exact List.append_nil _

theorem step {e : SessionEvent} (hs : Agreeing c x s) (he : e.within x = true)
    (hanswers : AnswersLastPress s e) (h : sessionStep s e = some t) : Agreeing c x t := by
  cases e with
  | page e =>
    simp only [sessionStep] at h
    split_ifs at h with hlocal
    cases h
    have hstays : e.retunes = false := by simpa [SessionEvent.within] using he
    exact hs.press (radioEvent_same hlocal hstays)
      (radioEvent_keying hlocal hstays hs.wsOpen hs.hold hs.keyed)
  | submitChannel p => cases he
  | sends msg =>
    simp only [sessionStep] at h
    split_ifs at h with hsteers
    cases h
    exact hs.sends (Bool.eq_false_of_not_eq_true hsteers)
  | receive choices =>
    simp only [sessionStep] at h
    split at h
    · rename_i y frame uplink hconn huplink
      obtain rfl := Option.some.inj (hs.conn.symm.trans hconn)
      exact hs.receive huplink h
    · cases h
  | server e =>
    simp only [sessionStep] at h
    split_ifs at h
    by_cases hx : e.thread = some (.client x)
    · cases e with
      | serve r => exact absurd (Option.some.inj hx) (by simpa [SessionEvent.within] using he)
      | advance i =>
        obtain rfl : i = .client x := Option.some.inj hx
        exact hs.own h
      | timerFires ch timer => cases hx
      | tick d => cases hx
    · exact hs.others h hx
  | poll =>
    simp only [sessionStep] at h
    split at h
    · split_ifs at h
      cases h
      exact hs.pump rfl rfl rfl fun _ hframe => hframe
    · -- the pump goes on to wait, or takes one urgent frame; it adds none
      split at h
      · cases h
        exact hs.pump rfl rfl rfl fun _ hframe => hframe
      · rename_i frame highPri hhigh
        cases h
        refine hs.pump rfl rfl rfl fun _ => ?_
        apply Session.downlink_of_highPri hhigh <;> rfl
    · cases h
  | write queue =>
    simp only [sessionStep] at h
    split at h
    · rename_i frame highPri hpump hhigh
      cases h
      refine hs.pump rfl rfl rfl fun _ => ?_
      apply Session.downlink_of_highPri hhigh <;> rfl
    · rename_i frame send hpump hsend
      cases h
      refine hs.pump rfl rfl rfl fun _ => ?_
      apply Session.downlink_of_send hsend <;> rfl
    · cases h
  | deliver =>
    simp only [sessionStep] at h
    split at h
    · cases h
    · rename_i frame wire hwire
      cases h
      exact hs.deliver hwire hanswers
  | opens y first => cases he
  | closes => cases he

/-- A connection opens while the page holds no key and is on the channel it will be put on. -/
theorem opens {first : ℕ} (hunderway : Underway floorObserver s.server)
    (hsound : FloorHistory.Sound (fun _ _ => True) s.hub s.server.pool.task s.server.history)
    (hkey : s.radio.Unkeyed) (hhold : s.radio.pttMode = .hold)
    (hcurrent : (s.hub.heap x).currentChannelID = c) (hc : s.hub.HasChannel c)
    (hchannel : s.radio.currentChannelID = c)
    (h : sessionStep s (.opens x first) = some t) : Agreeing c x t := by
  simp only [sessionStep] at h
  split_ifs at h
  obtain ⟨hstep, hradio, hconn, _⟩ := Session.serve_eq h
  obtain ⟨hadm, hidle, hphase, _, htask, _⟩ := serverStep_serve hstep
  obtain ⟨hstill, hhistory⟩ := serverStep_starts hstep
  have hhub : t.hub = s.hub := hstill
  have hstance : t.server.history.stance (.client x) = .fresh := by
    rw [hhistory]
    exact Function.update_self ..
  -- a client that has not been registered is on no channel, so it holds no floor
  have hfree : ∀ ch, s.hub.holder ch ≠ some x := by
    intro ch hheld
    have hfresh : s.server.phase x = .fresh := of_decide_eq_true hadm
    have hsettled := hunderway.idle (i := .client x) hidle
    have haway := hsettled.2
    rw [if_neg (by rw [hfresh]; exact Phase.noConfusion)] at haway
    obtain ⟨cur, hp⟩ := haway
    cases hp.holder ch hheld
  have hkeying : t.keying x = [] := by
    rw [Session.keying, hstance, hradio]
    rfl
  have hup : t.radio.isPTTDown = false := by
    rw [hradio]
    exact hkey.1
  have hoff : t.radio.isTransmitting = false := by
    rw [hradio]
    exact hkey.2
  refine ⟨hconn, by rw [hradio], by rw [hradio]; exact hhold, by rw [hradio]; exact hchannel, ?_,
    ⟨underway_step _ _ _ _ hunderway hstep,
      FloorHistory.sound_step floorObserver_tracks (fun _ => trivial) hsound hstep, ?_, ?_, ?_, ?_,
      fun hasks => ?_⟩, fun hon => ?_, ?_, fun hheld => ?_, fun hdown => ?_⟩
  · rw [hradio]
    intro frame hframe
    cases hframe
  · show (t.hub.heap x).currentChannelID = c
    rw [hhub]
    exact hcurrent
  · show t.hub.HasChannel c
    rw [hhub]
    exact hc
  · rw [show t.server.pool.task (.client x) = _ from htask, hstance]
    exact keepsFloor_registerClient
  · rw [show t.server.pool.task (.client x) = _ from htask]
    exact stays_prog rfl
  · rw [hstance] at hasks
    cases hasks
  · exact absurd (hoff.symm.trans hon) Bool.false_ne_true
  · rw [hkeying]
    intro d hd
    cases hd
  · rw [hhub] at hheld
    exact absurd hheld (hfree c)
  · exact absurd (hup.symm.trans hdown) Bool.false_ne_true

/-- With nothing in flight, the unit transmits exactly while it holds the floor. -/
theorem quiet (hs : Agreeing c x s) (hquiet : s.Quiet x) :
    s.hub.holder c = some x ↔ s.radio.isTransmitting = true := by
  have hdue : ∀ st, ¬ s.Due c x st := by
    rintro st (⟨i, howes⟩ | ⟨frame, hframe, _⟩)
    · exact hquiet.told i c st howes
    · rw [hquiet.downlink] at hframe
      cases hframe
  have hkeying : s.keying x = [] := by
    have hfollows := hs.tuned.sound.follows (.client x)
    rw [show s.server.pool.task (.client x) = .ret () from hquiet.idle] at hfollows
    rw [Session.keying, RadioState.keying, hquiet.uplink,
      show s.server.history.stance (.client x) = .fresh from hfollows]
    rfl
  constructor
  · intro hheld
    rcases hs.held hheld with hmem | ⟨_, hon | hd⟩
    · rw [hkeying] at hmem
      cases hmem
    · exact hon
    · exact absurd hd (hdue _)
  · intro hon
    rcases hs.pressed (hs.keyed hon) with hheld | hmem | ⟨st, _, hd⟩
    · exact hheld
    · rw [hkeying] at hmem
      cases hmem
    · exact absurd hd (hdue st)

end Agreeing

/-- In a session on one channel whose denials and timeouts all answer the last press: with nothing
in flight, the unit transmits exactly while it holds the floor. -/
theorem floor_agrees {cfg : Config} (hcfg : cfg.defaultChannels ≠ [])
    {recorder : Option AudioRecorder} {roipRelay : Bool} {heap : Clients} {now : ℤ}
    {radio : RadioState} {before es : List SessionEvent} {s t : Session} {x : ClientRef} {first : ℕ}
    (hbefore : Run sessionStep (Session.init radio
      (Server.init (newHub cfg recorder roipRelay heap now) FloorHistory.init)) before s)
    (hkey : s.radio.Unkeyed) (hhold : s.radio.pttMode = .hold)
    (hchannel : (s.hub.heap x).currentChannelID = s.radio.currentChannelID ∧
      s.hub.HasChannel s.radio.currentChannelID)
    (hrun : Run sessionStep s (.opens x first :: es) t) (hes : ∀ e ∈ es, e.within x = true)
    (hanswers : Guarded sessionStep AnswersLastPress s (.opens x first :: es))
    (hquiet : t.Quiet x) :
    t.hub.holder t.radio.currentChannelID = some x ↔ t.radio.isTransmitting = true := by
  have hunderway : Underway floorObserver s.server :=
    Session.server_invariant hbefore (underway_step floorObserver)
      (underway_init floorObserver _ hcfg recorder roipRelay heap now)
  have hsound : FloorHistory.Sound (fun _ _ => True) s.hub s.server.pool.task s.server.history :=
    Session.server_invariant
      (I := fun s => FloorHistory.Sound (fun _ _ => True) s.hub s.pool.task s.history) hbefore
      (fun s e t hs h => FloorHistory.sound_step floorObserver_tracks (fun _ => trivial) hs h)
      (FloorHistory.sound_init _ cfg recorder roipRelay heap now)
  obtain ⟨u, hopens, hrest⟩ := Run.cons_iff.mp hrun
  -- the invariant holds once the connection is open, and each event of the session keeps it
  have hinit := Agreeing.opens hunderway hsound hkey hhold hchannel.1 hchannel.2 rfl hopens
  have hinv := hrest.invariant_of_guarded (I := Agreeing s.radio.currentChannelID x)
    (fun s e t hs hg h => hs.step hg.1 hg.2 h) ((hanswers u hopens).2.and_forall hes) hinit
  rw [hinv.channel]
  exact hinv.quiet hquiet

/-- Idle threads owe nothing. -/
theorem Session.quiet_of_idle {s : Session} {x : ClientRef} {cfg : Config}
    {recorder : Option AudioRecorder} {roipRelay : Bool} {heap : Clients} {now : ℤ}
    {radio : RadioState} {es : List SessionEvent} (hrun : Run sessionStep (Session.init radio
      (Server.init (newHub cfg recorder roipRelay heap now) FloorHistory.init)) es s)
    (huplink : s.radio.uplink = []) (hdownlink : s.downlink = [])
    (hidle : ∀ i, s.server.pool.Idle i) : s.Quiet x := by
  have hsound : FloorHistory.Sound (fun _ _ => True) s.hub s.server.pool.task s.server.history :=
    Session.server_invariant
      (I := fun s => FloorHistory.Sound (fun _ _ => True) s.hub s.pool.task s.history) hrun
      (fun s e t hs h => FloorHistory.sound_step floorObserver_tracks (fun _ => trivial) hs h)
      (FloorHistory.sound_init _ cfg recorder roipRelay heap now)
  refine ⟨huplink, hdownlink, hidle _, fun i c st howes => ?_⟩
  have hfollows := hsound.follows i
  rw [show s.server.pool.task i = .ret () from hidle i] at hfollows
  rw [show s.server.history.stance i = .fresh from hfollows] at howes
  exact howes

/-- A page that has just been loaded, and a server that has just been started. -/
def freshSession : Session :=
  Session.init (pageLoad "UNIT-0")
    (Server.init (newHub defaultConfig none false sampleClients 0) FloorHistory.init)

/-- The hub reads the page's oldest frame and deals with it in `n` calls. -/
def answered (n : ℕ) : List SessionEvent :=
  .receive {} :: List.replicate n (.server (.advance (.client 0)))

/-- `WritePump` writes a frame of `highPri` and `n` frames of `send`, and the page hears them. -/
def caughtUp (n : ℕ) : List SessionEvent :=
  .poll :: (List.replicate n [.poll, .write .send]).flatten ++ List.replicate (n + 1) .deliver

/-- Unit 1 speaks when the page connects. The page presses and is denied; before it hears so, it
releases and presses again; unit 1 releases before the hub reads the second press. -/
def staleDenial : List SessionEvent :=
  .opens 0 0 :: (List.replicate 10 (.server (.advance (.client 0))) ++
    (uninterrupted (.connect 1 0) 10).map .server ++
    (uninterrupted (.signal 1 .pttDown {}) 8).map .server ++ [.page .requestFloor] ++
    answered 3 ++ [.page .releaseFloor, .page .requestFloor, .poll, .poll, .deliver] ++
    (uninterrupted (.signal 1 .pttUp {}) 7).map .server ++ answered 2 ++ answered 8 ++
    caughtUp 11)

/-- The second press is granted to a page that has let go of its button. -/
theorem floor_agrees_fails :
    ∃ t, Run sessionStep freshSession staleDenial t ∧
      (∀ e ∈ staleDenial.tail, e.within 0 = true) ∧ t.Quiet 0 ∧
      ¬ (t.hub.holder t.radio.currentChannelID = some 0 ↔ t.radio.isTransmitting = true) := by
  have hrun := run_get sessionStep freshSession staleDenial (by decide +kernel)
  refine ⟨_, hrun, by decide, ?_, fun h => ?_⟩
  · exact Session.quiet_of_idle hrun (by decide +kernel) (by decide +kernel)
      (Session.idle_of_two hrun (x := 0) (y := 1) (by decide) rfl (fun _ => rfl)
        (by decide +kernel) (by decide +kernel))
  · exact absurd (h.mp (by decide +kernel)) (by decide +kernel)

/-- The page connects and presses, and hears that it has the floor. -/
def pressAndHear : List SessionEvent :=
  .opens 0 0 :: (List.replicate 10 (.server (.advance (.client 0))) ++ [.page .requestFloor] ++
    answered 8 ++ [.poll] ++ caughtUp 5)

theorem floor_agrees_pressAndHear :
    ∃ t, Run sessionStep freshSession pressAndHear t ∧ t.radio.isTransmitting = true ∧
      t.hub.holder t.radio.currentChannelID = some 0 := by
  have hrun := run_get sessionStep freshSession pressAndHear (by decide +kernel)
  have hquiet := Session.quiet_of_idle (x := 0) hrun (by decide +kernel) (by decide +kernel)
    (Session.idle_of_two hrun (x := 0) (y := 1) (by decide) rfl (fun _ => rfl)
      (by decide +kernel) (by decide +kernel))
  have hon : ((pressAndHear.foldlM sessionStep freshSession).get
      (by decide +kernel)).radio.isTransmitting = true := by decide +kernel
  exact ⟨_, hrun, hon, (floor_agrees (x := 0) (by decide) (Run.nil freshSession) ⟨rfl, rfl⟩ rfl
    ⟨rfl, by unfold Hub.HasChannel; decide +kernel⟩ hrun (by decide) (by decide +kernel)
    hquiet).mpr hon⟩

end TwoWayRadio

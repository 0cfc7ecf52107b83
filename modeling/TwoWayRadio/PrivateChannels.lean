import TwoWayRadio.HubEffects
import TwoWayRadio.PrivateEntry

/-! Private channels: who is on one, and who is handed what was said on it, for any interleaving of
the handlers of all clients. -/
namespace TwoWayRadio
open Interleaving Transition

/-- `presenting` is the password of the request in progress, `joined` that of a client's latest
successful join, and `presented` holds those of all its successful joins. -/
structure JoinHistory where
  presenting : ClientRef → Option String
  joined : ClientRef → Option String
  presented : ClientRef → List String

namespace JoinHistory

def init : JoinHistory where
  presenting := fun _ => none
  joined := fun _ => none
  presented := fun _ => []

def starts (r : Request) (g : JoinHistory) : JoinHistory :=
  match r.thread with
  | .client x => { g with presenting := Function.update g.presenting x r.password }
  | _ => g

/-- A join has succeeded when the client is tuned to the new channel. -/
def sees (op : HubOp) (g : JoinHistory) : JoinHistory :=
  match op with
  | .setCurrentChannel x _ =>
    match g.presenting x with
    | some password => { g with
        joined := Function.update g.joined x (some password),
        presented := Function.update g.presented x (password :: g.presented x) }
    | none => g
  | _ => g

end JoinHistory

def joinObserver : Observer JoinHistory where
  starts := JoinHistory.starts
  sees := fun _ op _ _ g => g.sees op

def Frame.Reveals (c : ChannelID) : Frame → Prop
  | .json msg _ => msg.Reveals c
  | .binary _ => False

instance (c : ChannelID) (frame : Frame) : Decidable (frame.Reveals c) :=
  match frame with
  | .json msg _ => inferInstanceAs (Decidable (msg.Reveals c))
  | .binary _ => inferInstanceAs (Decidable False)

/-- Whoever is on a private channel has presented its password in its latest successful join, and
whoever has been handed chat of it has presented it in some join. -/
structure PrivateAccess (s : Server JoinHistory) : Prop where
  subscribed : ∀ c d x, s.hub.definitionOf c = some d → d.isPrivate = true →
    s.hub.Subscribed c x → s.history.joined x = some d.password
  chat : ∀ c d y queue frame, s.hub.definitionOf c = some d → d.isPrivate = true →
    Delivery.enqueue y queue frame ∈ s.hub.outbox → frame.Reveals c →
    d.password ∈ s.history.presented y

/-- The channel that a registration puts its client on. -/
def HubOp.placement : HubOp → Hub → Option ChannelDef
  | register x first, h => (h.registrationChannel x first).bind fun ch => h.definitionOf ch
  | _, _ => none

/-- No registration puts its client on a private channel. -/
def RegistersOpenly (s : Server JoinHistory) (e : ServerEvent) : Prop :=
  ∀ i ∈ e.thread, e = .advance i → ∀ op ∈ (s.pool.task i).nextCall,
    ∀ d ∈ op.placement s.hub, d.isPrivate = false

instance (s : Server JoinHistory) (e : ServerEvent) : Decidable (RegistersOpenly s e) :=
  inferInstanceAs (Decidable (∀ i ∈ e.thread, e = .advance i → ∀ op ∈ (s.pool.task i).nextCall,
    ∀ d ∈ op.placement s.hub, d.isPrivate = false))

section Calls

variable {α : Type} {x y : ClientRef} {op : HubOp} {c ch : ChannelID} {h : Hub}
  {g : JoinHistory}

namespace JoinHistory

theorem presenting_sees (op : HubOp) (g : JoinHistory) :
    (g.sees op).presenting = g.presenting := by
  unfold sees
  split
  · split <;> rfl
  · rfl

theorem joined_sees (hop : op.tunes ≠ some x) : (g.sees op).joined x = g.joined x := by
  unfold sees
  split
  · rename_i y new
    have hx : x ≠ y := fun heq => hop (congrArg some heq.symm)
    split
    · exact Function.update_of_ne hx ..
    · rfl
  · rfl

/-- What has been presented stays presented. -/
theorem presented_sees {password : String} (hp : password ∈ g.presented x) :
    password ∈ (g.sees op).presented x := by
  unfold sees
  split
  · rename_i y new
    split
    · by_cases hx : x = y
      · rw [hx] at hp ⊢
        simp only [Function.update_self]
        exact List.mem_cons_of_mem _ hp
      · simp only [Function.update_of_ne hx]
        exact hp
    · exact hp
  · exact hp

end JoinHistory

/-- Client `x` may be on the channel it is tuned to. -/
def Cleared (x : ClientRef) (h : Hub) (g : JoinHistory) : Prop :=
  ∃ d, h.definitionOf (h.heap x).currentChannelID = some d ∧
    (d.isPrivate = true → g.joined x = some d.password)

/-- What the handler of `x` knows is so. -/
structure Standing.Holds (x : ClientRef) (h : Hub) (g : JoinHistory) (st : Standing) : Prop where
  known : h.Knows x st.known
  target : ∀ ch d, st.target = some (ch, d) → h.definitionOf ch = some d
  out : st.out = true → ∀ c, ¬ h.Subscribed c x
  cleared : st.cleared = true → Cleared x h g

theorem Cleared.congr {h' : Hub} {g' : JoinHistory} (hc : Cleared x h g)
    (hcurrent : (h'.heap x).currentChannelID = (h.heap x).currentChannelID)
    (hdef : ∀ c d, h.definitionOf c = some d → h'.definitionOf c = some d)
    (hjoined : g'.joined x = g.joined x) : Cleared x h' g' := by
  obtain ⟨d, hd, hprivate⟩ := hc
  refine ⟨d, ?_, fun hp => ?_⟩
  · rw [hcurrent]
    exact hdef _ _ hd
  · rw [hjoined]
    exact hprivate hp

theorem Cleared.run (hc : Cleared x h g) (hop : op.tunes ≠ some x) :
    Cleared x (op.run h).2 (g.sees op) :=
  hc.congr (current_run hop) (fun _ _ => definitionOf_run op) (JoinHistory.joined_sees hop)

/-- What others do changes nothing about where a client stands. -/
theorem Standing.Holds.elsewhere {h' : Hub} {g' : JoinHistory} {st : Standing}
    (hst : st.Holds x h g) (he : Elsewhere x h h') (hjoined : g'.joined x = g.joined x) :
    st.Holds x h' g' where
  known := fun ch hch => (hst.known ch hch).trans he.current.symm
  target := fun ch d htarget => he.definition ch d (hst.target ch d htarget)
  out := fun hout c hs => hst.out hout c ((he.subscribed c).mp hs)
  cleared := fun hc => (hst.cleared hc).congr he.current he.definition hjoined

theorem learns_mono {known known' : List ChannelID} (hmem : ∀ c ∈ known, c ∈ known')
    (op : HubOp) (r : op.Res) : ∀ c ∈ op.learns r known, c ∈ op.learns r known' := by
  have happend : ∀ l : List ChannelID, ∀ c ∈ l ++ known, c ∈ l ++ known' := by
    intro l c hc
    rcases List.mem_append.mp hc with hl | hk
    · exact List.mem_append_left _ hl
    · exact List.mem_append_right _ (hmem c hk)
  cases op with
  | register y first => exact fun c hc => hc
  | setCurrentChannel y new => exact fun c hc => hc
  | unregister y => exact happend _
  | currentChannel y => exact happend _
  | appendChat y m => exact happend _
  | startVideo y v => exact happend _
  | lookupSwitch y new => exact happend _
  | endVideo y => exact happend _
  | fields y => exact happend [_]
  | _ => exact hmem

/-- A handler learns that its client is subscribed nowhere where it leaves the channel, or finds
that there is none to leave. -/
theorem Standing.Holds.out_run {st : Standing} (hst : st.Holds x h g)
    (hkeeps : op.KeepsTo x [(h.heap x).currentChannelID])
    (hat : ∀ c, h.Subscribed c x → c = (h.heap x).currentChannelID)
    (hout : (st.learns op (op.run h).1).out = true) (c : ChannelID) :
    ¬ (op.run h).2.Subscribed c x := by
  intro hs
  cases op with
  | lookupSwitch y new =>
    obtain rfl : y = x := hkeeps
    rcases (Bool.or_eq_true _ _).mp hout with hout | hnone
    · exact hst.out hout c hs
    · obtain rfl := hat c hs
      have hof := Hub.channelOf_some (x := y) rfl hs.hasChannel
      rw [show ((HubOp.lookupSwitch y new).run h).1.2 = h.channelOf y from rfl, hof] at hnone
      cases hnone
  | removeSubscriber ch y =>
    obtain ⟨hch, rfl⟩ := hkeeps
    have hbefore := (subscribed_run hs).resolve_right fun heq => by cases heq
    rw [hat c hbefore, ← List.mem_singleton.mp hch] at hs
    exact not_subscribed_removeSubscriber ch y h hs
  | addSubscriber ch y => cases hout
  | _ =>
    have hop := (subscribed_run hs).resolve_right fun heq => by cases heq
    exact hst.out hout c hop

/-- A client that a call tunes to a channel may be on it: nobody is registered on a private one,
and a switch has checked the password. -/
theorem Standing.Holds.cleared_tunes {st : Standing} (hst : st.Holds x h g)
    (hok : op.InOrder (g.presenting x) st) (htunes : op.tunes = some x)
    (hopen : ∀ d ∈ op.placement h, d.isPrivate = false) (hsome : ∃ ch, h.HasChannel ch) :
    Cleared x (op.run h).2 (g.sees op) := by
  cases op with
  | register y first =>
    obtain rfl : y = x := Option.some.inj htunes
    obtain ⟨ch, hreg, hch⟩ := registrationChannel_some (x := y) first hsome
    obtain ⟨d, hd⟩ := Hub.hasChannel_iff_definition.mp hch
    have hplaced : d ∈ (HubOp.register y first).placement h := by
      show (h.registrationChannel y first).bind _ = some d
      rw [hreg]
      exact hd
    have hnow : (((HubOp.register y first).run h).2.heap y).currentChannelID = ch := by
      show ((h.register y first).2.heap y).currentChannelID = ch
      rw [Hub.register_eq, hreg]
      simp
    refine ⟨d, ?_, fun hprivate => ?_⟩
    · rw [hnow]
      exact definitionOf_run _ hd
    · rw [hopen d hplaced] at hprivate
      cases hprivate
  | setCurrentChannel y new =>
    obtain rfl : y = x := Option.some.inj htunes
    -- the switch tunes in order: the target was looked up and its password compared
    obtain ⟨_, d, password, htarget, hoffer, hallowed⟩ := hok
    have hnow : (((HubOp.setCurrentChannel y new).run h).2.heap y).currentChannelID = new := by
      simp [HubOp.run, Hub.setClient]
    have hjoined : (g.sees (.setCurrentChannel y new)).joined y = some password := by
      simp only [JoinHistory.sees, hoffer, Function.update_self]
    refine ⟨d, ?_, fun hprivate => ?_⟩
    · rw [hnow]
      exact hst.target new d htarget
    · rw [hjoined, hallowed hprivate]
  | _ => cases htunes

/-- After a call in order, made for `x` on its channel, its handler still knows where it stands. -/
theorem Standing.Holds.run {st : Standing} (hst : st.Holds x h g)
    (hok : op.InOrder (g.presenting x) st) (hkeeps : op.KeepsTo x [(h.heap x).currentChannelID])
    (hat : ∀ c, h.Subscribed c x → c = (h.heap x).currentChannelID)
    (hopen : ∀ d ∈ op.placement h, d.isPrivate = false) (hsome : ∃ ch, h.HasChannel ch) :
    (st.learns op (op.run h).1).Holds x (op.run h).2 (g.sees op) := by
  have hknown : (op.run h).2.Knows x (op.learns (op.run h).1 st.known) := by
    have hmore : h.Knows x ((h.heap x).currentChannelID :: st.known) := by
      intro c hc
      rcases List.mem_cons.mp hc with rfl | hc
      · rfl
      · exact hst.known c hc
    have hown : op.KeepsTo x ((h.heap x).currentChannelID :: st.known) := by
      apply hkeeps.mono
      intro c hc
      rw [List.mem_singleton.mp hc]
      exact List.mem_cons_self
    -- what it learns from the call is more than it has to know
    have hrun := HubOp.knows_run hown hmore
    intro c hc
    exact hrun c (learns_mono (fun _ => List.mem_cons_of_mem _) op _ c hc)
  refine ⟨hknown, fun ch d htarget => ?_, hst.out_run hkeeps hat, fun hcleared => ?_⟩
  · cases op with
    | lookupSwitch y new =>
      obtain ⟨d', hd', heq⟩ := Option.map_eq_some_iff.mp htarget
      obtain ⟨rfl, rfl⟩ := Prod.mk.inj heq
      exact hd'
    | _ => exact definitionOf_run _ (hst.target ch d htarget)
  · -- cleared by this call, or before it and still so
    by_cases htunes : op.tunes = some x
    · exact hst.cleared_tunes hok htunes hopen hsome
    · have hstill : st.cleared = true := by
        cases op with
        | register y first => exact absurd (congrArg some hkeeps) htunes
        | setCurrentChannel y new => exact absurd (congrArg some hkeeps) htunes
        | _ => exact hcleared
      exact (hst.cleared hstill).run htunes

theorem remembered_sees (hg : ∀ y password, g.joined y = some password →
      password ∈ g.presented y) (y : ClientRef) (password : String)
    (hj : (g.sees op).joined y = some password) : password ∈ (g.sees op).presented y := by
  by_cases htunes : op.tunes = some y
  swap
  · rw [JoinHistory.joined_sees htunes] at hj
    exact JoinHistory.presented_sees (hg y password hj)
  cases op with
  | setCurrentChannel z new =>
    obtain rfl : z = y := Option.some.inj htunes
    simp only [JoinHistory.sees] at hj ⊢
    cases hoffer : g.presenting z with
    | none =>
      rw [hoffer] at hj
      exact hg z password hj
    | some offered =>
      rw [hoffer] at hj
      simp only [Function.update_self] at hj ⊢
      rw [Option.some.inj hj]
      exact List.mem_cons_self
  | register z first => exact hg y password hj
  | _ => cases htunes

/-- Histories hold messages of their own channel, and chat has been handed to those alone who may
have it. -/
structure ChatContained (h : Hub) (g : JoinHistory) : Prop where
  entries : ∀ c, ∀ m ∈ h.chatHistory c, m.channelID = c
  delivered : ∀ y queue frame c, Delivery.enqueue y queue frame ∈ h.outbox → frame.Reveals c →
    ∃ d, h.definitionOf c = some d ∧ (d.isPrivate = true → d.password ∈ g.presented y)

/-- It is enough to look at what the call appends and what it sends. -/
theorem ChatContained.run (hchat : ChatContained h g)
    (hentries : ∀ c m, op = .appendVoice c m ∨
      (∃ y, op = .appendChat y m ∧ c = (h.heap y).currentChannelID) → m.channelID = c)
    (hsent : ∀ msg ∈ op.message, ∀ c, msg.Reveals c → ∀ y ∈ op.receivers h,
      ∃ d, h.definitionOf c = some d ∧ (d.isPrivate = true → d.password ∈ g.presented y)) :
    ChatContained (op.run h).2 (g.sees op) := by
  refine ⟨fun c m hm => ?_, fun y queue frame c hd hreveals => ?_⟩
  · rcases mem_chatHistory_run hm with hold | hchatted | hvoice
    · exact hchat.entries c m hold
    · exact hentries c m (Or.inr hchatted)
    · exact hentries c m (Or.inl hvoice)
  · have hallowed : ∃ d, h.definitionOf c = some d ∧
        (d.isPrivate = true → d.password ∈ g.presented y) := by
      rw [HubOp.outbox_sends] at hd
      rcases List.mem_append.mp hd with hd | hd
      · exact hchat.delivered y queue frame c hd hreveals
      · cases frame with
        | binary data => exact hreveals.elim
        | json msg timestamp =>
          obtain ⟨hmsg, hy⟩ := HubOp.message_of_sends hd
          exact hsent msg hmsg c hreveals y hy
    obtain ⟨d, hdef, hprivate⟩ := hallowed
    exact ⟨d, definitionOf_run op hdef, fun hp => JoinHistory.presented_sees (hprivate hp)⟩

theorem ChatContained.run_of_ordinary (hchat : ChatContained h g) (hop : op.ordinary = true) :
    ChatContained (op.run h).2 (g.sees op) := by
  refine hchat.run (fun c m happend => ?_) fun msg hmsg c hreveals => ?_
  · rcases happend with rfl | ⟨y, rfl, _⟩
    · cases hop
    · cases hop
  · have hquiet : msg.hasChat = false := by
      cases op <;> cases hmsg <;> exact (Bool.not_eq_true' _).mp hop
    exact absurd hreveals (Signal.not_reveals hquiet)

/-- Everyone is subscribed at most to the channel it is tuned to and may be on. -/
def OnlyCleared (h : Hub) (g : JoinHistory) : Prop :=
  ∀ x c, h.Subscribed c x → c = (h.heap x).currentChannelID ∧ Cleared x h g

/-- Chat sent in order reaches those who may have it. -/
theorem ChatContained.run_of_inOrder (hchat : ChatContained h g) {st : Standing}
    (hst : st.Holds x h g) (hok : op.InOrder (g.presenting x) st)
    (hkeeps : op.KeepsTo x [(h.heap x).currentChannelID]) (honly : OnlyCleared h g)
    (hremembered : ∀ y password, g.joined y = some password → password ∈ g.presented y) :
    ChatContained (op.run h).2 (g.sees op) := by
  have hallowed : ∀ y, Cleared y h g → ∃ d,
      h.definitionOf (h.heap y).currentChannelID = some d ∧
        (d.isPrivate = true → d.password ∈ g.presented y) := by
    rintro y ⟨d, hd, hprivate⟩
    exact ⟨d, hd, fun hp => hremembered y _ (hprivate hp)⟩
  refine hchat.run (fun c m happend => ?_) fun msg hmsg c hreveals y hy => ?_
  · -- what is appended is of the channel it is appended to
    rcases happend with rfl | ⟨y, rfl, rfl⟩
    · exact hok
    · obtain rfl : y = x := hkeeps
      exact hst.known _ hok
  · -- what is sent goes to the subscribers of the channel of `x`, or to `x` itself
    cases op with
    | broadcastAll m =>
      obtain rfl := Option.some.inj hmsg
      exact absurd hreveals (Signal.not_reveals hok)
    | sendPriorityJSON z m =>
      obtain rfl := Option.some.inj hmsg
      exact absurd hreveals (Signal.not_reveals hok)
    | broadcastSignal ch m =>
      obtain rfl := Option.some.inj hmsg
      have hc : c = (h.heap x).currentChannelID := hst.known c (hok c hreveals)
      have hch : ch = (h.heap x).currentChannelID := List.mem_singleton.mp hkeeps
      obtain ⟨hat, hcleared⟩ := honly y ch (Hub.mem_subscribersOf.mp hy)
      rw [hc, ← hch, hat]
      exact hallowed y hcleared
    | sendJSON z m =>
      obtain rfl := Option.some.inj hmsg
      obtain rfl : z = x := hkeeps
      obtain rfl := List.mem_singleton.mp hy
      obtain ⟨hknown, hcleared⟩ := hok c hreveals
      rw [hst.known c hknown]
      exact hallowed y (hst.cleared hcleared)
    | _ => cases hmsg

/-- A call in order subscribes nobody to a channel that it may not be on. -/
theorem OnlyCleared.run (honly : OnlyCleared h g) {st : Standing} (hst : st.Holds x h g)
    (hok : op.InOrder (g.presenting x) st)
    (hkeeps : op.KeepsTo x [(h.heap x).currentChannelID]) :
    OnlyCleared (op.run h).2 (g.sees op) := by
  intro y c hs
  by_cases htunes : op.tunes = some y
  · -- whoever is tuned to another channel is subscribed nowhere
    exfalso
    have hbefore := (subscribed_run hs).resolve_right fun heq => by rw [heq] at htunes; cases htunes
    cases op with
    | register z first =>
      obtain rfl : z = x := hkeeps
      obtain rfl : z = y := Option.some.inj htunes
      exact hst.out hok c hbefore
    | setCurrentChannel z new =>
      obtain rfl : z = x := hkeeps
      obtain rfl : z = y := Option.some.inj htunes
      exact hst.out hok.1 c hbefore
    | _ => cases htunes
  · rw [current_run htunes]
    rcases subscribed_run hs with hbefore | rfl
    · obtain ⟨hat, hcleared⟩ := honly y c hbefore
      exact ⟨hat, hcleared.run htunes⟩
    · obtain ⟨hc, rfl⟩ := hkeeps
      exact ⟨List.mem_singleton.mp hc, (hst.cleared hok).run htunes⟩

end Calls

/-- Everybody is where it may be, and every handler knows where its client stands. -/
structure Guarding (s : Server JoinHistory) : Prop where
  keeps : KeepsToChannels s
  standing : ∀ x, ∃ st : Standing, st.Holds x s.hub s.history ∧
    (s.pool.task (.client x)).Follows (entry (s.history.presenting x))
      (fun _ st' => s.phase x = .live → st'.cleared = true) st
  others : ∀ i, (s.pool.task i).All fun op => (∀ x, i ≠ .client x) → op.ordinary = true
  fresh : ∀ x, s.phase x = .fresh →
    s.pool.Idle (.client x) ∧ ∀ c, ¬ s.hub.Subscribed c x
  channels : ∃ ch, s.hub.HasChannel ch
  subscribed : OnlyCleared s.hub s.history
  remembered : ∀ x password, s.history.joined x = some password →
    password ∈ s.history.presented x
  chat : ChatContained s.hub s.history

section Guarding

variable {s t : Server JoinHistory} {x : ClientRef}

theorem others_prog (r : Request) :
    r.prog.All fun op => (∀ x, r.thread ≠ .client x) → op.ordinary = true := by
  have hclient : ∀ (y : ClientRef) (p : HubProg Unit),
      p.All fun op => (∀ x, Thread.client y ≠ .client x) → op.ordinary = true :=
    fun y p => Prog.all_of_forall (fun op hne => absurd rfl (hne y)) p
  cases r with
  | connect y first => exact hclient y _
  | signal y msg choices => exact hclient y _
  | audio y data => exact hclient y _
  | disconnect y => exact hclient y _
  | totExpires ch timer =>
    exact (ordinary_prog (r := .totExpires ch timer) rfl).mono fun _ hop _ => hop
  | datagram data => exact (ordinary_prog (r := .datagram data) rfl).mono fun _ hop _ => hop

/-- Where a client stands when a handler of it is started. -/
theorem Guarding.start (hs : Guarding s) {r : Request} (hr : r.thread = .client x)
    (hadm : r.admitted s.hub s.phase = true) (hidle : s.pool.Idle (.client x)) (g : JoinHistory)
    (hjoined : g.joined x = s.history.joined x) :
    ∃ st : Standing, st.Holds x s.hub g ∧ r.prog.Follows (entry r.password)
      (fun _ st' => r.phaseAfter s.phase x = .live → st'.cleared = true) st := by
  -- an idle client that is live stands where it may be
  have hlive : s.phase x = .live →
      Standing.Holds x s.hub g { known := [], out := false, cleared := true } := by
    intro hphase
    obtain ⟨st, hst, hfollows⟩ := hs.standing x
    rw [hidle] at hfollows
    have hcleared := hst.cleared (hfollows hphase)
    refine ⟨fun _ hch => (List.not_mem_nil hch).elim, fun _ _ h => (by cases h),
      fun h => (by cases h), fun _ => ?_⟩
    exact hcleared.congr rfl (fun _ _ hd => hd) hjoined
  cases r with
  | connect y first =>
    obtain rfl := Thread.client.inj hr
    have hphase : s.phase y = .fresh := of_decide_eq_true hadm
    refine ⟨{ known := [], out := true, cleared := false }, ?_, ?_⟩
    · exact ⟨fun _ hch => (List.not_mem_nil hch).elim, fun _ _ h => (by cases h),
        fun _ => (hs.fresh y hphase).2, fun h => (by cases h)⟩
    · exact (cleared_registerClient first rfl).mono fun _ _ h _ => h
  | signal y msg choices =>
    obtain rfl := Thread.client.inj hr
    exact ⟨_, hlive (of_decide_eq_true hadm),
      (cleared_handleSignal msg choices rfl).mono fun _ _ h _ => h⟩
  | audio y data =>
    obtain rfl := Thread.client.inj hr
    exact ⟨_, hlive (of_decide_eq_true hadm),
      (cleared_of_ordinary (ordinary_prog (r := .audio y data) rfl) rfl).mono fun _ _ h _ => h⟩
  | disconnect y =>
    obtain rfl := Thread.client.inj hr
    have hclosed : (Request.disconnect y).phaseAfter s.phase y = .closed :=
      Function.update_self ..
    refine ⟨_, hlive (of_decide_eq_true hadm), inOrder_unregisterClient.mono fun _ _ _ h => ?_⟩
    rw [hclosed] at h
    cases h
  | totExpires ch timer => cases hr
  | datagram data => cases hr

theorem phaseAfter_ne_fresh {r : Request} {phase : ClientRef → Phase} (hr : r.thread = .client x)
    {h : Hub} (hadm : r.admitted h phase = true) : r.phaseAfter phase x ≠ .fresh := by
  intro hfresh
  cases r with
  | connect y first =>
    obtain rfl := Thread.client.inj hr
    rw [Request.phaseAfter, Function.update_self] at hfresh
    cases hfresh
  | disconnect y =>
    obtain rfl := Thread.client.inj hr
    rw [Request.phaseAfter, Function.update_self] at hfresh
    cases hfresh
  | signal y msg choices =>
    obtain rfl := Thread.client.inj hr
    have hphase : phase y = .live := of_decide_eq_true hadm
    have hsame : phase y = .fresh := hfresh
    rw [hphase] at hsame
    cases hsame
  | audio y data =>
    obtain rfl := Thread.client.inj hr
    have hphase : phase y = .live := of_decide_eq_true hadm
    have hsame : phase y = .fresh := hfresh
    rw [hphase] at hsame
    cases hsame
  | totExpires ch timer => cases hr
  | datagram data => cases hr

theorem JoinHistory.starts_eq (r : Request) (g : JoinHistory) :
    (g.starts r).joined = g.joined ∧ (g.starts r).presented = g.presented ∧
      ∀ x, (g.starts r).presenting x =
        if r.thread = .client x then r.password else g.presenting x := by
  unfold starts
  cases hr : r.thread with
  | client y =>
    refine ⟨rfl, rfl, fun x => ?_⟩
    dsimp only
    by_cases hx : x = y
    · rw [hx, Function.update_self, if_pos rfl]
    · rw [Function.update_of_ne hx, if_neg fun heq => hx (Thread.client.inj heq).symm]
  | tot ch timer => exact ⟨rfl, rfl, fun x => (if_neg fun heq => by cases heq).symm⟩
  | roip => exact ⟨rfl, rfl, fun x => (if_neg fun heq => by cases heq).symm⟩

theorem Guarding.serve {r : Request} (hs : Guarding s)
    (h : serverStep joinObserver s (.serve r) = some t) : Guarding t := by
  obtain ⟨hadm, hidle, hphase, _, htask, hothers⟩ := serverStep_serve h
  obtain ⟨hjoined, hpresented, hpresenting⟩ := JoinHistory.starts_eq r s.history
  obtain ⟨hhub, hstarts⟩ := serverStep_starts h
  have hhistory : t.history = s.history.starts r := hstarts
  refine ⟨hs.keeps.step h, fun x => ?_, tasks_all_step others_prog hs.others h, fun x hx => ?_,
    hhub ▸ hs.channels, fun x c hsub => ?_, fun x password hj => ?_, ?_⟩
  · -- the handler of `x` has begun on the request, or goes on with an earlier one
    rw [hhub, hhistory, hpresenting, hphase]
    by_cases hr : r.thread = .client x
    · rw [if_pos hr, ← hr, htask]
      exact hs.start hr hadm (hr ▸ hidle) _ (congrFun hjoined x)
    · rw [if_neg hr, hothers _ fun heq => hr heq.symm]
      obtain ⟨st, hst, hfollows⟩ := hs.standing x
      refine ⟨st, hst.elsewhere (Elsewhere.refl x s.hub) (congrFun hjoined x), ?_⟩
      rw [Request.phaseAfter_of_ne hr]
      exact hfollows
  · rw [hphase] at hx
    have hr : r.thread ≠ .client x := fun hr => phaseAfter_ne_fresh hr hadm hx
    rw [Request.phaseAfter_of_ne hr] at hx
    obtain ⟨hstill, hnot⟩ := hs.fresh x hx
    refine ⟨?_, hhub ▸ hnot⟩
    rw [Pool.Idle, hothers _ fun heq => hr heq.symm]
    exact hstill
  · rw [hhub] at hsub ⊢
    obtain ⟨hat, hcleared⟩ := hs.subscribed x c hsub
    rw [hhistory]
    exact ⟨hat, hcleared.congr rfl (fun _ _ hd => hd) (congrFun hjoined x)⟩
  · rw [hhistory] at hj ⊢
    rw [hjoined] at hj
    rw [hpresented]
    exact hs.remembered x password hj
  · rw [hhub, hhistory]
    refine ⟨hs.chat.entries, ?_⟩
    rw [hpresented]
    exact hs.chat.delivered

/-- A call changes nothing for a client that it is not made for. -/
theorem Guarding.elsewhere {i : Thread} (hs : Guarding s)
    (h : serverStep joinObserver s (.advance i) = some t) (hx : i ≠ .client x) :
    Elsewhere x s.hub t.hub ∧ t.history.joined x = s.history.joined x := by
  obtain ⟨op, k, hk, _, _, hseen, _⟩ := serverStep_advance h
  have hhistory : t.history = s.history.sees op := hseen
  have hop : op.touched ≠ some x := fun ht => hx (hs.keeps.thread_of_touched hk ht)
  constructor
  · exact hs.keeps.elsewhere h fun heq => hx (Option.some.inj heq)
  · rw [hhistory]
    apply JoinHistory.joined_sees
    intro heq
    apply hop
    cases op <;> first | exact heq | cases heq

theorem Guarding.standing_elsewhere {i : Thread} (hs : Guarding s)
    (h : serverStep joinObserver s (.advance i) = some t) (hx : i ≠ .client x) :
    ∃ st : Standing, st.Holds x t.hub t.history ∧
      (t.pool.task (.client x)).Follows (entry (t.history.presenting x))
        (fun _ st' => t.phase x = .live → st'.cleared = true) st := by
  obtain ⟨op, k, _, hphase, _, hseen, _, hothers⟩ := serverStep_advance h
  have hhistory : t.history = s.history.sees op := hseen
  obtain ⟨helse, hjoined⟩ := hs.elsewhere h hx
  obtain ⟨st, hst, hfollows⟩ := hs.standing x
  refine ⟨st, hst.elsewhere helse hjoined, ?_⟩
  rw [hothers _ hx.symm, hphase, hhistory, JoinHistory.presenting_sees]
  exact hfollows

theorem Guarding.standing_own (hs : Guarding s)
    (h : serverStep joinObserver s (.advance (.client x)) = some t)
    (hopen : RegistersOpenly s (.advance (.client x))) :
    ∃ st : Standing, st.Holds x t.hub t.history ∧
      (t.pool.task (.client x)).Follows (entry (t.history.presenting x))
        (fun _ st' => t.phase x = .live → st'.cleared = true) st := by
  obtain ⟨op, k, hk, hphase, hhub, hseen, htask, _⟩ := serverStep_advance h
  have hhistory : t.history = s.history.sees op := hseen
  obtain ⟨st, hst, hfollows⟩ := hs.standing x
  rw [hk] at hfollows
  obtain ⟨hok, hrest⟩ := hfollows
  have hplaced : ∀ d ∈ op.placement s.hub, d.isPrivate = false :=
    hopen _ rfl rfl op (by rw [hk]; rfl)
  have hat := fun c hsub => (hs.subscribed x c hsub).1
  refine ⟨st.learns op (op.run s.hub).1, ?_, ?_⟩
  · rw [hhub, hhistory]
    exact hst.run hok (hs.keeps.keepsTo hk) hat hplaced hs.channels
  · rw [htask, hphase, hhistory, JoinHistory.presenting_sees]
    apply hrest
    -- histories hold messages of their own channel
    cases op with
    | history ch => exact hs.chat.entries ch
    | _ => trivial

/-- Subscriptions and chat stay where they may be, whoever's handler makes the call. -/
theorem Guarding.contained {i : Thread} (hs : Guarding s)
    (h : serverStep joinObserver s (.advance i) = some t) :
    OnlyCleared t.hub t.history ∧ ChatContained t.hub t.history := by
  obtain ⟨op, k, hk, _, hhub, hseen, _⟩ := serverStep_advance h
  have hhistory : t.history = s.history.sees op := hseen
  -- a handler of a client keeps to its standing; the others make ordinary calls only
  by_cases hclient : ∃ x, i = .client x
  · obtain ⟨x, rfl⟩ := hclient
    obtain ⟨st, hst, hfollows⟩ := hs.standing x
    rw [hk] at hfollows
    have hkeeps := hs.keeps.keepsTo hk
    rw [hhub, hhistory]
    exact ⟨hs.subscribed.run hst hfollows.1 hkeeps,
      hs.chat.run_of_inOrder hst hfollows.1 hkeeps hs.subscribed hs.remembered⟩
  · have hne : ∀ x, i ≠ .client x := fun x hx => hclient ⟨x, hx⟩
    have hordinary := hs.others i
    rw [hk] at hordinary
    constructor
    · intro x c hsub
      obtain ⟨helse, hjoined⟩ := hs.elsewhere h (hne x)
      obtain ⟨hat, hcleared⟩ := hs.subscribed x c ((helse.subscribed c).mp hsub)
      exact ⟨hat.trans helse.current.symm, hcleared.congr helse.current helse.definition hjoined⟩
    · rw [hhub, hhistory]
      exact hs.chat.run_of_ordinary (hordinary.1 hne)

theorem Guarding.advance {i : Thread} (hs : Guarding s)
    (h : serverStep joinObserver s (.advance i) = some t)
    (hopen : RegistersOpenly s (.advance i)) : Guarding t := by
  obtain ⟨op, k, hk, hphase, hhub, hseen, _, hothers⟩ := serverStep_advance h
  have hhistory : t.history = s.history.sees op := hseen
  obtain ⟨hsubscribed, hchat⟩ := hs.contained h
  refine ⟨hs.keeps.step h, fun x => ?_, tasks_all_step others_prog hs.others h, fun x hx => ?_, ?_,
    hsubscribed, ?_, hchat⟩
  · by_cases hi : i = .client x
    · subst hi
      exact hs.standing_own h hopen
    · exact hs.standing_elsewhere h hi
  · -- a client that is not registered yet has no handler that could have made the call
    rw [hphase] at hx
    obtain ⟨hidle, hnot⟩ := hs.fresh x hx
    have hi : i ≠ .client x := by
      rintro rfl
      exact Pool.not_idle_of_call hk hidle
    refine ⟨(hothers _ hi.symm).trans hidle, fun c hsub => ?_⟩
    exact hnot c (((hs.elsewhere h hi).1.subscribed c).mp hsub)
  · obtain ⟨ch, hch⟩ := hs.channels
    exact ⟨ch, hhub ▸ HubOp.hasChannel_run op hch⟩
  · rw [hhistory]
    exact remembered_sees hs.remembered

/-- A change of the hub that no client notices. -/
theorem Guarding.unnoticed (hs : Guarding s) (hkeeps : KeepsToChannels t)
    (hphase : t.phase = s.phase) (hhistory : t.history = s.history)
    (htask : t.pool.task = s.pool.task) (helse : ∀ x, Elsewhere x s.hub t.hub)
    (hchat : t.hub.chatHistory = s.hub.chatHistory) (houtbox : t.hub.outbox = s.hub.outbox) :
    Guarding t := by
  refine ⟨hkeeps, fun x => ?_, fun i => ?_, fun x hx => ?_, ?_, fun x c hsub => ?_, ?_, ?_⟩
  · obtain ⟨st, hst, hfollows⟩ := hs.standing x
    rw [hhistory, htask, hphase]
    exact ⟨st, hst.elsewhere (helse x) rfl, hfollows⟩
  · rw [htask]
    exact hs.others i
  · rw [hphase] at hx
    obtain ⟨hidle, hnot⟩ := hs.fresh x hx
    refine ⟨?_, fun c hsub => hnot c (((helse x).subscribed c).mp hsub)⟩
    rw [Pool.Idle, htask]
    exact hidle
  · obtain ⟨ch, hch⟩ := hs.channels
    exact ⟨ch, (helse 0).hasChannel ch hch⟩
  · obtain ⟨hat, hcleared⟩ := hs.subscribed x c (((helse x).subscribed c).mp hsub)
    rw [hhistory]
    exact ⟨hat.trans (helse x).current.symm,
      hcleared.congr (helse x).current (helse x).definition rfl⟩
  · rw [hhistory]
    exact hs.remembered
  · refine ⟨fun c m hm => hs.chat.entries c m (hchat ▸ hm), fun y queue frame c hd hreveals => ?_⟩
    rw [houtbox] at hd
    obtain ⟨d, hdef, hprivate⟩ := hs.chat.delivered y queue frame c hd hreveals
    rw [hhistory]
    exact ⟨d, (helse y).definition c d hdef, hprivate⟩

theorem Guarding.step {e : ServerEvent} (hs : Guarding s) (hopen : RegistersOpenly s e)
    (h : serverStep joinObserver s e = some t) : Guarding t := by
  cases e with
  | serve r => exact hs.serve h
  | advance i => exact hs.advance h hopen
  | timerFires ch timer =>
    obtain ⟨hf, hphase, hhistory, htask⟩ := serverStep_timerFires h
    obtain ⟨c, c', _, _, heq⟩ := Hub.fireTimer_eq hf
    exact hs.unnoticed (hs.keeps.step h) hphase hhistory htask
      (fun x => hs.keeps.elsewhere h (Option.some_ne_none _).symm) (by rw [heq]) (by rw [heq])
  | tick d =>
    obtain ⟨hhub, hphase, hhistory, htask⟩ := serverStep_tick h
    exact hs.unnoticed (hs.keeps.step h) hphase hhistory htask
      (fun x => hs.keeps.elsewhere h (Option.some_ne_none _).symm) (by rw [hhub]) (by rw [hhub])

theorem Guarding.init {cfg : Config} (hcfg : cfg.defaultChannels ≠ [])
    (recorder : Option AudioRecorder) (roipRelay : Bool) (heap : Clients) (now : ℤ) :
    Guarding (Server.init (newHub cfg recorder roipRelay heap now) JoinHistory.init) := by
  have hnobody : ∀ x c, ¬ (newHub cfg recorder roipRelay heap now).Subscribed c x := by
    intro x c hs
    obtain ⟨cur, hp⟩ := newHub_away cfg recorder roipRelay heap now x
    cases (hp.subscribed c).mp hs
  refine ⟨KeepsToChannels.init _ _, fun x => ⟨{ known := [], out := true, cleared := false }, ?_,
    fun hlive => by cases hlive⟩, fun i => trivial, fun x _ => ⟨rfl, hnobody x⟩,
    newHub_hasChannel hcfg .., fun x c hs => absurd hs (hnobody x c), fun x password hj => ?_, ?_⟩
  · exact ⟨fun _ hch => (List.not_mem_nil hch).elim, fun _ _ h => (by cases h),
      fun _ => hnobody x, fun h => (by cases h)⟩
  · cases hj
  · exact ⟨fun c m hm => (List.not_mem_nil hm).elim,
      fun y queue frame c hd _ => (List.not_mem_nil hd).elim⟩

/-- In a run none of whose registrations puts a client on a private channel, private channels are
for those who have presented the password. -/
theorem private_access {cfg : Config} (hcfg : cfg.defaultChannels ≠ [])
    {recorder : Option AudioRecorder} {roipRelay : Bool} {heap : Clients} {now : ℤ}
    {es : List ServerEvent} {s : Server JoinHistory}
    (hrun : Run (serverStep joinObserver)
      (Server.init (newHub cfg recorder roipRelay heap now) JoinHistory.init) es s)
    (hopen : Guarded (serverStep joinObserver) RegistersOpenly
      (Server.init (newHub cfg recorder roipRelay heap now) JoinHistory.init) es) :
    PrivateAccess s := by
  have hinv := hrun.invariant_of_guarded (I := Guarding) (fun s e t hs hg h => hs.step hg h) hopen
    (Guarding.init hcfg recorder roipRelay heap now)
  refine ⟨fun c d x hd hprivate hs => ?_, fun c d y queue frame hd hprivate hsent hreveals => ?_⟩
  · obtain ⟨hat, d', hd', hallowed⟩ := hinv.subscribed x c hs
    rw [← hat, hd] at hd'
    obtain rfl := Option.some.inj hd'
    exact hallowed hprivate
  · obtain ⟨d', hd', hallowed⟩ := hinv.chat.delivered y queue frame c hsent hreveals
    rw [hd] at hd'
    obtain rfl := Option.some.inj hd'
    exact hallowed hprivate

end Guarding

/-- Unit 0 makes a private channel and speaks on it. -/
def makesPrivate : List ServerEvent :=
  uninterrupted (.connect 0 0) 10 ++
    uninterrupted (.signal 0 (.createChannel
      { value := { name := "HQ", isPrivate := true, password := "secret" } }) {}) 20 ++
    uninterrupted (.signal 0 (.chatMessage
      { value := { channelID := 0, senderID := "", callsign := "", text := "hello" } }) {}) 5

/-- Channel 1, where clients register, is not among the channels. -/
def withoutFirst : Config where
  totDuration := 60 * second
  defaultChannels := [{ id := 5, name := "OPERATIONS" }]

/-- Unit 1 joins nothing; its registration falls back to the private channel. -/
def fallsBack : List ServerEvent := makesPrivate ++ uninterrupted (.connect 1 0) 11

theorem private_access_fails :
    ∃ s, Run (serverStep joinObserver)
        (Server.init (newHub withoutFirst none false sampleClients 0) JoinHistory.init)
        fallsBack s ∧
      (withoutFirst.defaultChannels ≠ [] ∧
        ∀ d ∈ withoutFirst.defaultChannels, d.isPrivate = false) ∧
      s.hub.definitionOf 2 = some (Hub.newChannelDef 2
        { name := "HQ", isPrivate := true, password := "secret" }) ∧
      s.hub.Subscribed 2 1 ∧ s.history.joined 1 = none ∧
      (∃ frame ∈ framesTo 1 s.hub.outbox, frame.Reveals 2) ∧ ¬ PrivateAccess s := by
  have hrun := run_get (serverStep joinObserver)
    (Server.init (newHub withoutFirst none false sampleClients 0) JoinHistory.init) fallsBack
    (by decide +kernel)
  refine ⟨_, hrun, by decide, by decide +kernel, Hub.mem_subscribersOf.mp (by decide +kernel),
    by decide +kernel, by decide +kernel, fun haccess => ?_⟩
  have hjoined := haccess.subscribed 2 (Hub.newChannelDef 2
    { name := "HQ", isPrivate := true, password := "secret" }) 1 (by decide +kernel) rfl
    (Hub.mem_subscribersOf.mp (by decide +kernel))
  revert hjoined
  decide +kernel

/-- Unit 1 guesses, and then presents the password. -/
def joinsPrivate : List ServerEvent :=
  makesPrivate ++ uninterrupted (.connect 1 0) 10 ++
    uninterrupted
      (.signal 1 (.joinChannel { value := { channelID := 9, password := "guess" } }) {}) 3 ++
    uninterrupted
      (.signal 1 (.joinChannel { value := { channelID := 9, password := "secret" } }) {}) 17

theorem private_access_joins :
    ∃ s, Run (serverStep joinObserver)
        (Server.init (newHub defaultConfig none false sampleClients 0) JoinHistory.init)
        joinsPrivate s ∧
      s.hub.Subscribed 9 1 ∧ PrivateAccess s := by
  have hrun := run_get (serverStep joinObserver)
    (Server.init (newHub defaultConfig none false sampleClients 0) JoinHistory.init) joinsPrivate
    (by decide +kernel)
  refine ⟨_, hrun, Hub.mem_subscribersOf.mp (by decide +kernel), ?_⟩
  exact private_access (by decide) hrun (by decide +kernel)

end TwoWayRadio

import TwoWayRadio.HubIsolation

/-! What the handlers of a client know of where it stands, and that they act on it: clients enter
channels that they may enter, and chat is of the channel that its sender is on. -/
namespace TwoWayRadio
open Interleaving

/-- The password that a request presents to `SwitchChannel`. -/
def Request.password : Request → Option String
  | signal _ (.joinChannel p) _ => some p.value.password
  | signal _ (.createChannel p) _ => some p.value.password
  | _ => none

/-- The message carries chat of channel `c`: a message of it, or its history. -/
def Signal.Reveals (c : ChannelID) : Signal → Prop
  | .chatMessage m => m.channelID = c
  | .chatHistory ch messages => ch = c ∨ ∃ m ∈ messages, m.channelID = c
  | _ => False

instance (c : ChannelID) (msg : Signal) : Decidable (msg.Reveals c) := by
  unfold Signal.Reveals
  split <;> infer_instance

def Signal.hasChat : Signal → Bool
  | .chatMessage _ | .chatHistory .. => true
  | _ => false

theorem Signal.not_reveals {msg : Signal} {c : ChannelID} (hmsg : msg.hasChat = false) :
    ¬ msg.Reveals c := by
  cases msg <;> first | exact id | cases hmsg

/-- The calls that neither move a client nor have to do with chat. -/
def HubOp.ordinary (op : HubOp) : Bool :=
  match op, op.message with
  | register .., _ | lookupSwitch .., _ | setCurrentChannel .., _ | addSubscriber .., _
  | removeSubscriber .., _ | appendChat .., _ | appendVoice .., _ => false
  | _, some msg => !msg.hasChat
  | _, none => true

section Ordinary

open Prog

abbrev Ordinary {α : Type} (p : HubProg α) : Prop := p.All fun op => op.ordinary = true

variable {x : ClientRef} {ch : ChannelID}

theorem ordinary_broadcastUserList (ch : ChannelID) : Ordinary (Hub.broadcastUserList ch) :=
  all_then rfl fun _ => all_then rfl fun _ => all_perform rfl

theorem ordinary_announceIdle (ch : ChannelID) (c : Client) : Ordinary (Hub.announceIdle ch c) :=
  all_then rfl fun _ => all_then rfl fun _ => all_perform rfl

theorem ordinary_finishRecording (ch : ChannelID) : Ordinary (Hub.finishRecording ch) :=
  all_then rfl fun _ => all_bind (all_ifSome fun _ => all_perform rfl) fun _ => trivial

theorem ordinary_endVideoOf (ch : ChannelID) (x : ClientRef) : Ordinary (Hub.endVideoOf ch x) :=
  all_then rfl fun _ => all_then rfl fun _ => all_when (all_then rfl fun _ => all_perform rfl)

/-- The signals whose handlers are ordinary. -/
def ClientSignal.ordinary : ClientSignal → Bool
  | joinChannel _ | createChannel _ | pttUp | chatMessage _ => false
  | _ => true

/-- The requests whose handlers are ordinary. -/
def Request.ordinary : Request → Bool
  | connect .. | disconnect _ => false
  | signal _ msg _ => msg.ordinary
  | _ => true

theorem Request.stays_of_ordinary {r : Request} (hr : r.ordinary = true) :
    r.arrives = false ∧ r.departs = false := by
  cases r with
  | connect x first => cases hr
  | disconnect x => cases hr
  | signal x msg choices => cases msg <;> first | exact ⟨rfl, rfl⟩ | cases hr
  | _ => exact ⟨rfl, rfl⟩

/-- Only the answer to a switch and a chat message carry chat. -/
theorem Signal.quiet_of_toldBy {r : Request} (hr : r.ordinary = true) {msg : Signal}
    (hmsg : msg.toldBy r = true) : msg.hasChat = false := by
  cases msg with
  | chatHistory ch messages =>
    exact absurd ((Request.stays_of_ordinary hr).1.symm.trans hmsg) Bool.false_ne_true
  | chatMessage m =>
    simp only [Signal.toldBy] at hmsg
    split at hmsg
    · cases hr
    · cases hmsg
  | _ => rfl

theorem ordinary_prog {r : Request} (hr : r.ordinary = true) : Ordinary r.prog := by
  obtain ⟨harrives, hdeparts⟩ := Request.stays_of_ordinary hr
  refine (makes_prog r).mono fun op hop => ?_
  have hserved := HubOp.servedBy_of_madeBy hop
  have hquiet : ∀ msg ∈ op.message, (!msg.hasChat) = true := by
    intro msg hmsg
    rw [Signal.quiet_of_toldBy hr (HubOp.toldBy_of_madeBy hop hmsg)]
    rfl
  rcases HubOp.untouched_of_servedBy harrives hdeparts hserved with hnone | ⟨ch, y, rfl⟩
  swap
  · rfl
  cases op with
  | register y first => cases hnone
  | setCurrentChannel y new => cases hnone
  | addSubscriber ch y => cases hnone
  | removeSubscriber ch y => cases hnone
  | lookupSwitch y new =>
    exact absurd (harrives.symm.trans (arrives_of_switches hserved)) Bool.false_ne_true
  | appendChat y m =>
    simp only [HubOp.servedBy] at hserved
    split at hserved
    · cases hr
    · cases hserved
  | appendVoice ch m =>
    simp only [HubOp.servedBy] at hserved
    split at hserved
    · cases hr
    · cases hserved
  | broadcastAll msg => exact hquiet msg rfl
  | broadcastSignal ch msg => exact hquiet msg rfl
  | sendJSON y msg => exact hquiet msg rfl
  | sendPriorityJSON y msg => exact hquiet msg rfl
  | _ => rfl

end Ordinary

/-- What a handler of a client knows of where it stands: channels that the client is tuned to, the
channel looked up for a switch, whether it is subscribed nowhere, and whether it has been let into
the channel it is tuned to. -/
structure Standing where
  known : List ChannelID
  target : Option (ChannelID × ChannelDef) := none
  out : Bool
  cleared : Bool

/-- What a call teaches a handler. -/
def Standing.learns (st : Standing) (op : HubOp) (r : op.Res) : Standing where
  known := op.learns r st.known
  target :=
    match op, r with
    | .lookupSwitch _ new, r => r.1.map fun d => (new, d)
    | _, _ => st.target
  out :=
    match op, r with
    | .lookupSwitch .., r => st.out || r.2.isNone
    | .removeSubscriber .., _ => true
    | .addSubscriber .., _ => false
    | _, _ => st.out
  cleared :=
    match op with
    | .register .. | .setCurrentChannel .. => true
    | _ => st.cleared

/-- The call of a handler that presents `offer` is in order: clients are moved while they are
subscribed nowhere, to channels that they may enter, and chat is of the client's own channel. -/
def HubOp.InOrder (offer : Option String) (st : Standing) : HubOp → Prop
  | register .. => st.out = true
  | setCurrentChannel _ ch => st.out = true ∧ ∃ d password, st.target = some (ch, d) ∧
      offer = some password ∧ (d.isPrivate = true → password = d.password)
  | addSubscriber .. => st.cleared = true
  | appendChat _ m => m.channelID ∈ st.known
  | appendVoice ch m => m.channelID = ch
  | broadcastSignal _ msg => ∀ c, msg.Reveals c → c ∈ st.known
  | sendJSON _ msg => ∀ c, msg.Reveals c → c ∈ st.known ∧ st.cleared = true
  | broadcastAll msg | sendPriorityJSON _ msg => msg.hasChat = false
  | _ => True

/-- A handler keeps in order, given that histories hold messages of their own channel. -/
def entry (offer : Option String) : Prog.Protocol HubOp.Res Standing where
  ok := fun st op => op.InOrder offer st
  next := fun st op r => st.learns op r
  can := fun op r =>
    match op, r with
    | .history ch, r => ∀ m ∈ r.1, m.channelID = ch
    | _, _ => True

section Entry

open Prog

variable {x : ClientRef} {offer : Option String} {st : Standing} {ch : ChannelID}

/-- The handler still knows all that it knew, and has not moved its client. -/
structure Standing.Extends (st st' : Standing) : Prop where
  known : ∀ c ∈ st.known, c ∈ st'.known
  target : st'.target = st.target
  out : st'.out = st.out
  cleared : st'.cleared = st.cleared

theorem Standing.Extends.refl (st : Standing) : st.Extends st := ⟨fun _ h => h, rfl, rfl, rfl⟩

theorem Standing.Extends.trans {st' st'' : Standing} (h : st.Extends st')
    (h' : st'.Extends st'') : st.Extends st'' where
  known := fun c hc => h'.known c (h.known c hc)
  target := h'.target.trans h.target
  out := h'.out.trans h.out
  cleared := h'.cleared.trans h.cleared

theorem HubOp.inOrder_of_ordinary {op : HubOp} (hop : op.ordinary = true) :
    op.InOrder offer st := by
  have hquiet : ∀ {msg : Signal}, (!msg.hasChat) = true → ∀ c, ¬ msg.Reveals c :=
    fun hmsg _ => Signal.not_reveals (by simpa using hmsg)
  cases op with
  | register y first => cases hop
  | setCurrentChannel y new => cases hop
  | addSubscriber c y => cases hop
  | appendChat y m => cases hop
  | appendVoice c m => cases hop
  | broadcastSignal c msg => exact fun c hc => absurd hc (hquiet hop c)
  | sendJSON y msg => exact fun c hc => absurd hc (hquiet hop c)
  | broadcastAll msg => exact (Bool.not_eq_true' _).mp hop
  | sendPriorityJSON y msg => exact (Bool.not_eq_true' _).mp hop
  | _ => trivial

theorem Standing.extends_of_ordinary {op : HubOp} (hop : op.ordinary = true) (r : op.Res) :
    st.Extends (st.learns op r) := by
  have happend : ∀ (l : List ChannelID) c, c ∈ st.known → c ∈ l ++ st.known :=
    fun l c hc => List.mem_append_right l hc
  cases op with
  | register y first => cases hop
  | setCurrentChannel y new => cases hop
  | lookupSwitch y new => cases hop
  | addSubscriber c y => cases hop
  | removeSubscriber c y => cases hop
  | unregister y => exact ⟨happend _, rfl, rfl, rfl⟩
  | currentChannel y => exact ⟨happend _, rfl, rfl, rfl⟩
  | startVideo y v => exact ⟨happend _, rfl, rfl, rfl⟩
  | endVideo y => exact ⟨happend _, rfl, rfl, rfl⟩
  | fields y => exact ⟨fun c hc => List.mem_cons_of_mem _ hc, rfl, rfl, rfl⟩
  | appendChat y m => cases hop
  | _ => exact .refl st

theorem extends_of_ordinary {α : Type} {p : HubProg α} (hp : Ordinary p) :
    p.Follows (entry offer) (fun _ st' => st.Extends st') st := by
  induction p generalizing st with
  | ret a => exact .refl st
  | call op k ih =>
    refine ⟨HubOp.inOrder_of_ordinary hp.1, fun r _ => ?_⟩
    have hrest : (k r).Follows (entry offer) (fun _ st' => (st.learns op r).Extends st')
        (st.learns op r) := ih r (hp.2 r)
    exact hrest.mono fun _ st' h => (Standing.extends_of_ordinary hp.1 r).trans h

/-- The client of the handler stays let in. -/
abbrev StaysCleared (offer : Option String) {α : Type} (p : HubProg α) (st : Standing) : Prop :=
  p.Follows (entry offer) (fun _ st' => st'.cleared = true) st

theorem cleared_of_ordinary {α : Type} {p : HubProg α} (hp : Ordinary p)
    (hst : st.cleared = true) : StaysCleared offer p st :=
  (extends_of_ordinary hp).mono fun _ _ h => h.cleared.trans hst

/-- The history of a channel that the client is tuned to. -/
theorem cleared_history {hist : List (ChatMessagePayload Bytes)} (hch : ch ∈ st.known)
    (hhist : ∀ m ∈ hist, m.channelID = ch) (hst : st.cleared = true) :
    ∀ c, (Signal.chatHistory ch hist).Reveals c → c ∈ st.known ∧ st.cleared = true := by
  rintro c (rfl | ⟨m, hm, rfl⟩)
  · exact ⟨hch, hst⟩
  · rw [hhist m hm]
    exact ⟨hch, hst⟩

theorem cleared_welcomeClient (hst : st.cleared = true) :
    StaysCleared offer (Hub.welcomeClient x) st := by
  refine follows_then trivial fun c _ => follows_then (fun _ h => h.elim) fun _ _ => ?_
  refine follows_then trivial fun channels _ => follows_then (fun _ h => h.elim) fun _ _ => ?_
  refine follows_then trivial fun r hr => ?_
  refine follows_bind (Q := fun _ st' => st'.cleared = true) ?_ fun _ st' hst' => ?_
  · unfold when
    split_ifs
    · exact follows_then (cleared_history List.mem_cons_self hr hst) fun _ _ => hst
    · exact hst
  · exact cleared_of_ordinary (all_ifSome fun v => all_perform rfl) hst'

theorem cleared_registerClient (first : ℕ) (hout : st.out = true) :
    StaysCleared offer (Hub.registerClient x first) st := by
  refine follows_then hout fun r _ => ?_
  refine follows_bind (Q := fun _ st' => st'.cleared = true) ?_ fun _ st' hst' =>
    cleared_welcomeClient hst'
  cases r with
  | none => rfl
  | some ch =>
    exact follows_then rfl fun _ _ => cleared_of_ordinary (ordinary_broadcastUserList ch) rfl

theorem inOrder_unregisterClient : (Hub.unregisterClient x).Follows (entry offer)
    (fun _ _ => True) st := by
  refine follows_then trivial fun r _ => ?_
  cases r with
  | none => trivial
  | some ch =>
    refine follows_then trivial fun released _ => ?_
    have hrest : Ordinary (Hub.broadcastUserList ch >>= fun _ => Hub.endVideoOf ch x >>= fun _ =>
        when (released = true) ((HubOp.fields x).call >>= fun c => Hub.announceIdle ch c)) :=
      all_bind (ordinary_broadcastUserList ch) fun _ => all_bind (ordinary_endVideoOf ch x)
        fun _ => all_when (all_then rfl fun c => ordinary_announceIdle ch c)
    exact (extends_of_ordinary hrest).mono fun _ _ _ => trivial

/-- Leaving a channel, the client is subscribed nowhere. -/
theorem out_leaveChannel (c : Client) (hold : Option ChannelID)
    (hst : hold = none → st.out = true) :
    (ifSome hold (Hub.leaveChannel x c)).Follows (entry offer)
      (fun _ st' => st'.target = st.target ∧ st'.out = true) st := by
  cases hold with
  | none => exact ⟨rfl, hst rfl⟩
  | some ch =>
    refine follows_then trivial fun released _ => ?_
    have hrest : Ordinary (Hub.broadcastUserList ch >>= fun _ =>
        when (released = true) (Hub.announceIdle ch c) >>= fun _ => Hub.endVideoOf ch x) :=
      all_bind (ordinary_broadcastUserList ch) fun _ =>
        all_bind (all_when (ordinary_announceIdle ch c)) fun _ => ordinary_endVideoOf ch x
    exact (extends_of_ordinary hrest).mono fun _ st' h => ⟨h.target, h.out⟩

theorem cleared_enterChannel {new : ChannelID} {d : ChannelDef} {password : String}
    (htarget : st.target = some (new, d)) (hout : st.out = true)
    (hallowed : d.isPrivate = true → password = d.password) :
    StaysCleared (some password) (Hub.enterChannel x new) st := by
  have henter : (HubOp.setCurrentChannel x new).InOrder (some password) st :=
    ⟨hout, d, password, htarget, rfl, hallowed⟩
  refine follows_then henter fun _ _ => follows_then rfl fun _ _ => ?_
  refine follows_bind (extends_of_ordinary (ordinary_broadcastUserList new)) fun _ st' h => ?_
  have hnew : new ∈ st'.known := h.known new List.mem_cons_self
  have hcleared : st'.cleared = true := h.cleared
  refine follows_then trivial fun state _ => follows_then (fun _ h => h.elim) fun _ _ => ?_
  refine follows_then trivial fun r hr => ?_
  refine follows_then (cleared_history hnew hr hcleared) fun _ _ => ?_
  exact cleared_of_ordinary (all_ifSome fun v => all_perform rfl) hcleared

theorem cleared_switchChannel (new : ChannelID) (password : String) (hst : st.cleared = true) :
    StaysCleared (some password) (Hub.switchChannel x new password) st := by
  refine follows_then trivial fun r _ => ?_
  dsimp only
  split
  · exact follows_then (fun _ h => h.elim) fun _ _ => hst
  · rename_i d hd
    refine follows_then trivial fun c _ => ?_
    split_ifs with hsame hwrong
    · exact hst
    · exact follows_then (fun _ h => h.elim) fun _ _ => hst
    · refine follows_bind (out_leaveChannel c r.2 fun hnone => ?_) fun _ st' hst' => ?_
      · show (st.out || r.2.isNone) = true
        rw [hnone]
        exact Bool.or_true _
      · refine cleared_enterChannel (d := d) ?_ hst'.2 fun hprivate => ?_
        · rw [hst'.1]
          show r.1.map _ = _
          rw [hd]
          rfl
        · by_contra hne
          exact hwrong ⟨hprivate, Ne.symm hne⟩

theorem cleared_when {b : Prop} [Decidable b] {p : HubProg Unit} (hst : st.cleared = true)
    (hp : StaysCleared offer p st) : StaysCleared offer (when b p) st := by
  unfold when
  split_ifs
  · exact hp
  · exact hst

theorem cleared_createSignal (p : Decoded CreateChannelPayload) (hst : st.cleared = true) :
    StaysCleared (some p.value.password) (Hub.createSignal x p) st :=
  cleared_when hst <| follows_then trivial fun newID _ => follows_then trivial fun _ _ =>
    follows_then rfl fun _ _ => cleared_switchChannel newID p.value.password hst

/-- A chat message is addressed to the channel that its sender is tuned to. -/
theorem cleared_chatSignal (p : Decoded (ChatMessagePayload String)) (choices : Choices)
    (hst : st.cleared = true) : StaysCleared offer (Hub.chatSignal x p choices) st := by
  refine cleared_when hst <| follows_then trivial fun now _ => follows_then trivial fun c _ =>
    follows_then trivial fun stamp _ => follows_then List.mem_cons_self fun r _ => ?_
  cases r with
  | none => exact hst
  | some ch =>
    refine follows_then ?_ fun _ _ => hst
    rintro c' rfl
    exact List.mem_append_right [ch] List.mem_cons_self

theorem cleared_handlePTTUp (hst : st.cleared = true) :
    StaysCleared offer (Hub.handlePTTUp x) st := by
  refine follows_then trivial fun r _ => ?_
  cases r with
  | none => exact hst
  | some ch =>
    refine follows_then trivial fun released _ => cleared_when hst ?_
    refine follows_bind (cleared_of_ordinary (ordinary_finishRecording ch) hst)
      fun saved st' hst' => follows_then trivial fun c _ => ?_
    refine follows_bind (Q := fun _ st' => st'.cleared = true) ?_ fun _ st' hst' =>
      cleared_of_ordinary (ordinary_announceIdle ch c) hst'
    cases saved with
    | none => exact hst'
    | some r => exact follows_then rfl fun _ _ => hst'

theorem cleared_handleSignal (msg : ClientSignal) (choices : Choices) (hst : st.cleared = true) :
    StaysCleared (Request.signal x msg choices).password (Hub.handleSignal x msg choices) st := by
  by_cases hmsg : msg.ordinary = true
  · exact cleared_of_ordinary (ordinary_prog (r := .signal x msg choices) hmsg) hst
  · cases msg with
    | joinChannel p => exact cleared_when hst (cleared_switchChannel _ _ hst)
    | createChannel p => exact cleared_createSignal p hst
    | pttUp => exact cleared_handlePTTUp hst
    | chatMessage p => exact cleared_chatSignal p choices hst
    | _ => exact absurd rfl hmsg

end Entry

end TwoWayRadio

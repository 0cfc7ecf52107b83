import TwoWayRadio.CatchUp
import TwoWayRadio.HubEffects
import TwoWayRadio.PrivateEntry

/-! The chat list of a page, and the calls of the handlers that fill it: a client that joins a
channel, and the others who write on it. -/
namespace TwoWayRadio
open Interleaving Transition

/-- The chat drawer of `radio.js` and the channel that its page is on. -/
structure ChatDrawer where
  currentChannelID : ChannelID
  chatMessagesList : List (ChatMessagePayload Bytes)

namespace ChatDrawer

def appendChatMessage (s : ChatDrawer) (payload : ChatMessagePayload Bytes) : ChatDrawer :=
  { s with chatMessagesList := s.chatMessagesList ++ [payload] }

def handleIncomingChatMessage (payload : ChatMessagePayload Bytes) (s : ChatDrawer) : ChatDrawer :=
  if payload.channelID ≠ s.currentChannelID then s else s.appendChatMessage payload

def handleChatHistory (chID : ChannelID) (messages : List (ChatMessagePayload Bytes))
    (s : ChatDrawer) : ChatDrawer :=
  if chID ≠ s.currentChannelID then s
  else messages.foldl appendChatMessage { s with chatMessagesList := [] }

def onMessage (s : ChatDrawer) : Frame → ChatDrawer
  | .json (.chatMessage payload) _ => s.handleIncomingChatMessage payload
  | .json (.chatHistory chID messages) _ => s.handleChatHistory chID messages
  | _ => s

/-- The drawer after all of the frames. -/
def shows (s : ChatDrawer) (frames : List Frame) : ChatDrawer := frames.foldl onMessage s

variable {s : ChatDrawer} {c : ChannelID} {messages : List (ChatMessagePayload Bytes)}

theorem shows_append (s : ChatDrawer) (fs gs : List Frame) :
    s.shows (fs ++ gs) = (s.shows fs).shows gs := List.foldl_append

theorem shows_singleton (s : ChatDrawer) (frame : Frame) :
    s.shows [frame] = s.onMessage frame := rfl

theorem foldl_appendChatMessage (s : ChatDrawer) (messages : List (ChatMessagePayload Bytes)) :
    messages.foldl appendChatMessage s =
      { s with chatMessagesList := s.chatMessagesList ++ messages } := by
  induction messages generalizing s with
  | nil => simp
  | cons m rest ih =>
    rw [List.foldl_cons, ih]
    simp [appendChatMessage]

theorem onMessage_current (s : ChatDrawer) (frame : Frame) :
    (s.onMessage frame).currentChannelID = s.currentChannelID := by
  unfold onMessage
  split
  · unfold handleIncomingChatMessage
    split_ifs <;> rfl
  · unfold handleChatHistory
    split_ifs
    · rfl
    · rw [foldl_appendChatMessage]
  · rfl

theorem shows_current (s : ChatDrawer) (frames : List Frame) :
    (s.shows frames).currentChannelID = s.currentChannelID := by
  induction frames generalizing s with
  | nil => rfl
  | cons frame rest ih => exact (ih _).trans (onMessage_current s frame)

theorem onMessage_chatMessage {m : ChatMessagePayload Bytes} (hm : m.channelID = s.currentChannelID)
    (now : ℤ) : (s.onMessage (.json (.chatMessage m) now)).chatMessagesList =
      s.chatMessagesList ++ [m] := by
  show (s.handleIncomingChatMessage m).chatMessagesList = _
  rw [handleIncomingChatMessage, if_neg (not_not.mpr hm)]
  rfl

theorem onMessage_chatHistory (hc : c = s.currentChannelID) (now : ℤ) :
    (s.onMessage (.json (.chatHistory c messages) now)).chatMessagesList = messages := by
  show (s.handleChatHistory c messages).chatMessagesList = _
  rw [handleChatHistory, if_neg (not_not.mpr hc), foldl_appendChatMessage]
  rfl

/-- What is not chat does not show in the drawer. -/
theorem shows_of_quiet {frames : List Frame}
    (hquiet : ∀ msg now, Frame.json msg now ∈ frames → msg.hasChat = false) :
    s.shows frames = s := by
  induction frames generalizing s with
  | nil => rfl
  | cons frame rest ih =>
    have hframe : s.onMessage frame = s := by
      cases frame with
      | binary data => rfl
      | json msg now =>
        have hmsg := hquiet msg now List.mem_cons_self
        cases msg with
        | chatMessage m => cases hmsg
        | chatHistory ch ms => cases hmsg
        | _ => rfl
    show (s.onMessage frame).shows rest = s
    rw [hframe]
    exact ih fun msg now hmem => hquiet msg now (List.mem_cons_of_mem _ hmem)

end ChatDrawer

/-- What a call of thread `i` is to the transcript of client `J` on channel `c`. -/
def HubOp.chatEvent (J : ClientRef) (c : ChannelID) (i : Thread) (h : Hub) :
    HubOp → Option (CatchUp.Event Thread)
  | appendChat y _ => if (h.heap y).currentChannelID = c then some (.append i) else none
  | broadcastSignal ch (.chatMessage _) => if ch = c then some (.publish i) else none
  | history ch => if i = .client J ∧ ch = c then some .snap else none
  | sendJSON y (.chatHistory ch _) => if y = J ∧ ch = c then some .install else none
  | _ => none

def chatObserver (J : ClientRef) (c : ChannelID) : Observer (CatchUp.State Thread) where
  starts := fun _ g => g
  sees := fun i op _ h g => ((op.chatEvent J c i h).bind (CatchUp.step g)).getD g

abbrev ChatServer := Server (CatchUp.State Thread)

/-- What a step of the server is to the transcript. -/
def chatStep (J : ClientRef) (c : ChannelID) (s : ChatServer) :
    ServerEvent → Option (CatchUp.Event Thread)
  | .advance i => (s.pool.task i).nextCall.bind (HubOp.chatEvent J c i s.hub)
  | _ => none

/-- A message that is broadcast is in the history that `J` is to be sent, or it is not and `J` has
been sent it. -/
def ToldInOrder (J : ClientRef) (c : ChannelID) (s : ChatServer) (e : ServerEvent) : Prop :=
  ∀ a ∈ chatStep J c s e, CatchUp.InTurn s.history a

instance (J : ClientRef) (c : ChannelID) (s : ChatServer) (e : ServerEvent) :
    Decidable (ToldInOrder J c s e) :=
  inferInstanceAs (Decidable (∀ a ∈ chatStep J c s e, CatchUp.InTurn s.history a))

/-- A step of the server is a step of catching up, or has nothing to do with it. -/
def Tracks (J : ClientRef) (c : ChannelID) (s : ChatServer) (e : ServerEvent) (t : ChatServer) :
    Prop :=
  match chatStep J c s e with
  | some a => CatchUp.step s.history a = some t.history
  | none => t.history = s.history

theorem right_of_tracks {J : ClientRef} {c : ChannelID} {s t : ChatServer} {e : ServerEvent}
    (hs : CatchUp.Inv s.history) (h : Tracks J c s e t) :
    CatchUp.Right t.history ↔ CatchUp.Right s.history ∧ ToldInOrder J c s e := by
  unfold Tracks at h
  unfold ToldInOrder
  -- a step that is none of catching up is trivially told in order
  cases ha : chatStep J c s e with
  | none =>
    rw [ha] at h
    rw [show t.history = s.history from h]
    exact ⟨fun hr => ⟨hr, fun a hmem => by cases hmem⟩, fun hr => hr.1⟩
  | some a =>
    rw [ha] at h
    rw [CatchUp.right_step hs h]
    refine and_congr_right fun _ => ⟨fun hin b hb => ?_, fun hin => hin a rfl⟩
    exact Option.some.inj hb ▸ hin

/-- Calls that neither are about a client nor have to do with chat. -/
def HubOp.hushed : HubOp → Bool
  | history _ | fields _ => false
  | op => op.ordinary && op.touched.isNone

section Hushed

variable {op : HubOp} {h : Hub}

theorem HubOp.touched_of_hushed (hop : op.hushed = true) : op.touched = none := by
  have htouched : (op.ordinary && op.touched.isNone) = true := by
    cases op <;> first | exact hop | cases hop
  exact Option.isNone_iff_eq_none.mp ((Bool.and_eq_true _ _).mp htouched).2

theorem HubOp.tunes_of_hushed (hop : op.hushed = true) : op.tunes = none := by
  cases op <;> first | rfl | cases hop

theorem HubOp.appends_of_hushed (hop : op.hushed = true) : op.appends h = none := by
  cases op <;> first | rfl | cases hop

theorem HubOp.quiet_of_hushed (hop : op.hushed = true) :
    ∀ msg ∈ op.message, msg.hasChat = false := by
  intro msg hmsg
  cases op <;> cases hmsg <;> cases msg <;> first | rfl | cases hop

theorem HubOp.chatEvent_of_hushed (hop : op.hushed = true) (J : ClientRef) (c : ChannelID)
    (i : Thread) : op.chatEvent J c i h = none := by
  cases op with
  | broadcastSignal ch msg => cases msg <;> first | rfl | cases hop
  | sendJSON y msg => cases msg <;> first | rfl | cases hop
  | history ch => cases hop
  | appendChat y m => cases hop
  | _ => rfl

end Hushed

/-- How far `SwitchChannel` is: before the client is tuned to the new channel, before it is
subscribed there, before it has looked up the history, and before it has sent it. -/
inductive SwitchStage
  | leaving | moved | listening
  | snapped (hist : List (ChatMessagePayload Bytes))
  | shown

namespace SwitchStage

/-- The calls of the switch of `J` to `c` that are not hushed. -/
def Awaits (J : ClientRef) (c : ChannelID) : SwitchStage → HubOp → Prop
  | leaving, op => op = .lookupSwitch J c ∨ op = .fields J ∨ (∃ ch, op = .removeSubscriber ch J) ∨
    op = .setCurrentChannel J c
  | moved, op => op = .addSubscriber c J
  | listening, op => op = .history c
  | snapped hist, op => op = .sendJSON J (.chatHistory c hist)
  | shown, _ => False

def next (st : SwitchStage) (op : HubOp) (r : op.Res) : SwitchStage :=
  match op, r with
  | .setCurrentChannel .., _ => moved
  | .addSubscriber .., _ => listening
  | .history _, r => snapped r.1
  | .sendJSON _ (.chatHistory ..), _ => shown
  | _, _ => st

theorem next_of_hushed {op : HubOp} (hop : op.hushed = true) (st : SwitchStage) (r : op.Res) :
    st.next op r = st := by
  cases op with
  | setCurrentChannel y ch => cases hop
  | addSubscriber ch y => cases hop
  | history ch => cases hop
  | sendJSON y msg =>
    cases msg with
    | chatHistory ch ms => cases hop
    | _ => rfl
  | _ => rfl

end SwitchStage

/-- A switch of `J` to `c`, given that `c` is as `d` says and `J` is not on it. -/
def switching (J : ClientRef) (c : ChannelID) (d : ChannelDef) :
    Prog.Protocol HubOp.Res SwitchStage where
  ok := fun st op => op.hushed = true ∨ st.Awaits J c op
  next := fun st op r => st.next op r
  can := fun op r =>
    match op, r with
    | .lookupSwitch .., r => r.1 = some d
    | .fields _, r => r.currentChannelID ≠ c
    | _, _ => True

theorem can_of_hushed {J : ClientRef} {c : ChannelID} {d : ChannelDef} {op : HubOp}
    (hop : op.hushed = true) (r : op.Res) : (switching J c d).can op r := by
  cases op with
  | lookupSwitch y ch => cases hop
  | fields y => cases hop
  | _ => trivial

/-- How far a chat message is: not yet appended, appended, and broadcast. -/
inductive ChatStage
  | composing
  | due (m : ChatMessagePayload Bytes)
  | done

namespace ChatStage

def Permits (y : ClientRef) (c : ChannelID) : ChatStage → HubOp → Prop
  | composing, op => op = .clock ∨ op = .fields y ∨ ∃ m, op = .appendChat y m ∧ m.channelID = c
  | due m, op => op = .broadcastSignal c (.chatMessage m)
  | done, _ => False

def next (st : ChatStage) : HubOp → ChatStage
  | .appendChat _ m => due m
  | .broadcastSignal .. => done
  | _ => st

end ChatStage

/-- A chat message of `y`, given that `y` is on `c`. -/
def chatting (y : ClientRef) (c : ChannelID) : Prog.Protocol HubOp.Res ChatStage where
  ok := fun st op => st.Permits y c op
  next := fun st op _ => st.next op
  can := fun op r =>
    match op, r with
    | .fields _, r => r.currentChannelID = c
    | .appendChat .., r => r = some c
    | _, _ => True

section Handlers

open Prog

variable {J y : ClientRef} {c : ChannelID} {d : ChannelDef}

abbrev Hushed {α : Type} (p : HubProg α) : Prop := p.All fun op => op.hushed = true

theorem hushed_broadcastUserList (ch : ChannelID) : Hushed (Hub.broadcastUserList ch) :=
  all_then rfl fun _ => all_then rfl fun _ => all_perform rfl

theorem hushed_announceIdle (ch : ChannelID) (speaker : Client) :
    Hushed (Hub.announceIdle ch speaker) :=
  all_then rfl fun _ => all_then rfl fun _ => all_perform rfl

/-- The calls that leave a channel. -/
theorem leaves_leaveChannel (ch : ChannelID) (speaker : Client) :
    (Hub.leaveChannel J speaker ch).All fun op =>
      op.hushed = true ∨ op = .fields J ∨ ∃ ch, op = .removeSubscriber ch J := by
  have hquiet : ∀ {p : HubProg Unit}, Hushed p → p.All fun op =>
      op.hushed = true ∨ op = .fields J ∨ ∃ ch, op = .removeSubscriber ch J :=
    fun hp => hp.mono fun _ hop => Or.inl hop
  refine all_then (Or.inr (Or.inr ⟨ch, rfl⟩)) fun released => ?_
  refine all_bind (hquiet (hushed_broadcastUserList ch)) fun _ => ?_
  refine all_bind (all_when (hquiet (hushed_announceIdle ch speaker))) fun _ => ?_
  refine all_then (Or.inl rfl) fun video => all_then (Or.inr (Or.inl rfl)) fun _ => all_when ?_
  exact all_then (Or.inl rfl) fun _ => all_perform (Or.inl rfl)

theorem stays_of_hushed {α : Type} {p : HubProg α} (hp : Hushed p) (st : SwitchStage) :
    p.Follows (switching J c d) (fun _ st' => st' = st) st :=
  follows_of_all (fun _ hop => ⟨Or.inl hop, st.next_of_hushed hop⟩) hp

theorem switching_enterChannel :
    (Hub.enterChannel J c).Follows (switching J c d) (fun _ st => st = .shown) .leaving := by
  -- tuned, subscribed, and then the history is looked up and sent
  refine follows_then (Or.inr (Or.inr (Or.inr (Or.inr rfl)))) fun _ _ => ?_
  refine follows_then (Or.inr rfl) fun _ _ => ?_
  refine follows_bind (stays_of_hushed (hushed_broadcastUserList c) .listening) fun _ st hst => ?_
  subst hst
  refine follows_then (Or.inl rfl) fun state _ => follows_then (Or.inl rfl) fun _ _ => ?_
  refine follows_then (Or.inr rfl) fun r _ => follows_then (Or.inr rfl) fun _ _ => ?_
  have hvideo : ∀ v, Hushed (HubOp.sendJSON J (.videoCallStart v)).call := fun _ => all_perform rfl
  exact stays_of_hushed (all_ifSome hvideo) .shown

theorem switching_switchChannel {password : String}
    (hallowed : ¬ (d.isPrivate = true ∧ d.password ≠ password)) :
    (Hub.switchChannel J c password).Follows (switching J c d) (fun _ st => st = .shown)
      .leaving := by
  refine follows_then (Or.inr (Or.inl rfl)) fun r hr => ?_
  have htarget : r.1 = some d := hr
  dsimp only
  rw [htarget]
  refine follows_then (Or.inr (Or.inr (Or.inl rfl))) fun me hme => ?_
  rw [if_neg (show me.currentChannelID ≠ c from hme), if_neg hallowed]
  refine follows_bind (Q := fun _ st => st = .leaving) ?_
    fun _ st hst => hst ▸ switching_enterChannel
  refine follows_of_all (fun op hop => ?_) (all_ifSome fun ch => leaves_leaveChannel ch me)
  rcases hop with hop | rfl | ⟨ch, rfl⟩
  · exact ⟨Or.inl hop, SwitchStage.leaving.next_of_hushed hop⟩
  · exact ⟨Or.inr (Or.inr (Or.inl rfl)), fun _ => rfl⟩
  · exact ⟨Or.inr (Or.inr (Or.inr (Or.inl ⟨ch, rfl⟩))), fun _ => rfl⟩

theorem chatting_chatSignal (p : Decoded (ChatMessagePayload String)) (choices : Choices) :
    (Hub.chatSignal y p choices).Follows (chatting y c) (fun _ st => ∀ m, st ≠ .due m)
      .composing := by
  have hcomposing : ∀ m, ChatStage.composing ≠ .due m := fun m heq => by cases heq
  unfold Hub.chatSignal when
  dsimp only
  split_ifs
  · refine follows_then (Or.inl rfl) fun now _ => ?_
    refine follows_then (Or.inr (Or.inl rfl)) fun me hme => ?_
    refine follows_then (Or.inl rfl) fun stamp _ => ?_
    refine follows_then (Or.inr (Or.inr ⟨_, rfl, hme⟩)) fun r hr => ?_
    rw [show r = some c from hr]
    exact follows_then rfl fun _ _ m heq => by cases heq
  · exact hcomposing

end Handlers

end TwoWayRadio

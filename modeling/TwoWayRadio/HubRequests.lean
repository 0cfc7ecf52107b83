import TwoWayRadio.HubCalls
import TwoWayRadio.Server

/-! Which requests make which calls, and the request behind every call of a run. -/
namespace TwoWayRadio
open Interleaving Transition

namespace Request

/-- The requests whose handler can come to `SwitchChannel`. -/
def switches : Request → Bool
  | signal _ (.joinChannel _) _ | signal _ (.createChannel _) _ => true
  | _ => false

/-- The requests that can take a client off its channel. -/
def departs : Request → Bool
  | disconnect _ => true
  | r => r.switches

/-- The requests that can put a client on a channel. -/
def arrives : Request → Bool
  | connect .. => true
  | r => r.switches

def sendsAudio : Request → Bool
  | audio .. | datagram _ => true
  | _ => false

/-- The requests whose client can be shown a video. -/
def showsVideo : Request → Bool
  | signal _ (.videoCallStart _) _ => true
  | r => r.arrives

/-- The requests after which a transmission can be over. -/
def endsTransmission : Request → Bool
  | signal _ .pttDown _ | signal _ .pttUp _ | totExpires .. => true
  | _ => false

end Request

/-- The handler of the request can make the call. -/
def HubOp.servedBy : HubOp → Request → Bool
  | register .., r => match r with | .connect .. => true | _ => false
  | unregister _, r => match r with | .disconnect _ => true | _ => false
  | addSubscriber .., r | history _, r => r.arrives
  | lookupSwitch .., r | setCurrentChannel .., r | getState _, r => r.switches
  | removeSubscriber .., r | activeVideo _, r | deleteVideo _, r => r.departs
  | createChannel _, r => match r with | .signal _ (.createChannel _) _ => true | _ => false
  | appendChat .., r => match r with | .signal _ (.chatMessage _) _ => true | _ => false
  | appendVoice .., r | releaseFloor .., r => match r with | .signal _ .pttUp _ => true | _ => false
  | startVideo .., r => match r with | .signal _ (.videoCallStart _) _ => true | _ => false
  | endVideo _, r => match r with | .signal _ .videoCallEnd _ => true | _ => false
  | clientByID _, r => match r with | .signal _ (.videoRelay ..) _ => true | _ => false
  | allCallAudio .., r | broadcastAudio .., r | lookupChannel _, r | isFloorHolder .., r
  | appendAudio .., r | addAudioBytes _, r | getRelay, r | relay .., r => r.sendsAudio
  | requestFloor .., r | onTransmissionStart .., r | addTransmission, r | addPreemption, r =>
    match r with | .signal _ .pttDown _ => true | _ => false
  | onTransmissionEnd _, r => r.endsTransmission
  | handleTOT .., r => match r with | .totExpires .. => true | _ => false
  | setCallsign .., r | setRole .., r =>
    match r with | .signal _ (.identify _) _ => true | _ => false
  | setLocation .., r => match r with | .signal _ (.location _) _ => true | _ => false
  | currentChannel _, _ | getChannelList, _ | getUserCallsigns _, _ | getSubscribersInfo _, _
  | broadcastAll _, _ | broadcastSignal .., _ | sendJSON .., _ | sendPriorityJSON .., _
  | fields _, _ | clock, _ => true

/-- The handler of the request can send the message. -/
def Signal.toldBy : Signal → Request → Bool
  | chatHistory .., r => r.arrives
  | chatMessage _, r => match r with | .signal _ (.chatMessage _) _ => true | _ => false
  | videoCallStart _, r => r.showsVideo
  | _, _ => true

/-- The handler of the request can make the call, with the message that it sends. -/
def HubOp.madeBy (op : HubOp) (r : Request) : Bool :=
  match op.message with
  | some msg => msg.toldBy r
  | none => op.servedBy r

theorem HubOp.servedBy_of_madeBy {op : HubOp} {r : Request} (hop : op.madeBy r = true) :
    op.servedBy r = true := by
  cases op <;> first | rfl | exact hop

theorem HubOp.toldBy_of_madeBy {op : HubOp} {r : Request} (hop : op.madeBy r = true)
    {msg : Signal} (hmsg : msg ∈ op.message) : msg.toldBy r = true := by
  unfold madeBy at hop
  rwa [Option.mem_def.mp hmsg] at hop

section Served

open Prog

/-- The program makes only calls that the request's handler can make. -/
abbrev Request.Serves (r : Request) {α : Type} (p : HubProg α) : Prop :=
  p.All fun op => op.servedBy r = true

/-- The program makes only such calls, with messages that the request's handler can send. -/
abbrev Request.Makes (r : Request) {α : Type} (p : HubProg α) : Prop :=
  p.All fun op => op.madeBy r = true

theorem makes_broadcastUserList (r : Request) (ch : ChannelID) :
    r.Makes (Hub.broadcastUserList ch) :=
  all_then rfl fun _ => all_then rfl fun _ => all_perform rfl

theorem makes_announceIdle (r : Request) (ch : ChannelID) (c : Client) :
    r.Makes (Hub.announceIdle ch c) :=
  all_then rfl fun _ => all_then rfl fun _ => all_perform rfl

theorem makes_finishRecording {r : Request} (hr : r.endsTransmission = true) (ch : ChannelID) :
    r.Makes (Hub.finishRecording ch) :=
  all_then hr fun _ => all_bind (all_ifSome fun _ => all_perform rfl) fun _ => trivial

theorem makes_endVideoOf {r : Request} (hr : r.departs = true) (ch : ChannelID) (x : ClientRef) :
    r.Makes (Hub.endVideoOf ch x) :=
  all_then hr fun _ => all_then rfl fun _ => all_when (all_then hr fun _ => all_perform rfl)

theorem departs_of_switches {r : Request} (hr : r.switches = true) : r.departs = true := by
  cases r <;> first | exact hr | cases hr

theorem arrives_of_switches {r : Request} (hr : r.switches = true) : r.arrives = true := by
  cases r <;> first | exact hr | cases hr

theorem showsVideo_of_switches {r : Request} (hr : r.switches = true) : r.showsVideo = true := by
  unfold Request.showsVideo
  split
  · rfl
  · exact arrives_of_switches hr

theorem makes_switchChannel {r : Request} (hr : r.switches = true) (x : ClientRef)
    (new : ChannelID) (password : String) : r.Makes (Hub.switchChannel x new password) := by
  refine all_then hr fun answer => ?_
  dsimp only
  split
  · exact all_perform rfl
  · refine all_then rfl fun c => ?_
    split_ifs
    · trivial
    · exact all_perform rfl
    · refine all_bind (all_ifSome fun ch => ?_) fun _ => ?_
      · exact all_then (departs_of_switches hr) fun _ => all_bind (makes_broadcastUserList r ch)
          fun _ => all_bind (all_when (makes_announceIdle r ch c)) fun _ =>
          makes_endVideoOf (departs_of_switches hr) ch x
      · refine all_then hr fun _ => all_then (arrives_of_switches hr) fun _ =>
          all_bind (makes_broadcastUserList r new) fun _ => all_then hr fun _ =>
          all_then rfl fun _ => all_then (arrives_of_switches hr) fun _ =>
          all_then (arrives_of_switches hr) fun _ =>
          all_ifSome fun _ => all_perform (showsVideo_of_switches hr)

theorem makes_handlePTTDown (x : ClientRef) (choices : Choices) :
    (Request.signal x .pttDown choices).Makes (Hub.handlePTTDown x) := by
  refine all_then rfl fun ch => ?_
  cases ch with
  | none => exact all_perform rfl
  | some ch =>
    refine all_then rfl fun reply => ?_
    show All _ (Hub.answerRequest x ch reply)
    unfold Hub.answerRequest
    split_ifs
    · refine all_then rfl fun _ => all_bind (all_ifSome fun y => ?_) fun _ => all_then rfl fun _ =>
        all_then rfl fun c => all_then rfl fun _ => all_then rfl fun _ => all_perform rfl
      exact all_then rfl fun _ => all_bind (makes_finishRecording rfl ch) fun _ =>
        all_then rfl fun c => all_perform rfl
    · exact all_perform rfl

theorem makes_handlePTTUp (x : ClientRef) (choices : Choices) :
    (Request.signal x .pttUp choices).Makes (Hub.handlePTTUp x) :=
  all_then rfl fun _ => all_ifSome fun ch => all_then rfl fun _ => all_when <|
    all_bind (makes_finishRecording rfl ch) fun _ => all_then rfl fun c =>
    all_bind (all_ifSome fun _ => all_perform rfl) fun _ => makes_announceIdle _ ch c

theorem makes_handleBinaryAudio (x : ClientRef) (data : Bytes) :
    (Request.audio x data).Makes (Hub.handleBinaryAudio x data) := by
  unfold Hub.handleBinaryAudio
  split
  · trivial
  · refine all_then rfl fun _ => all_when <| all_then rfl fun _ => all_when <|
      all_then rfl fun _ => all_when <| all_then rfl fun _ =>
      all_bind (all_when (all_perform rfl)) fun _ => all_bind ?_ fun _ =>
      all_then rfl fun _ => all_when (all_perform rfl)
    unfold Hub.fanOut
    split_ifs
    · exact all_perform rfl
    · exact all_perform rfl

theorem makes_handleSignal (x : ClientRef) (msg : ClientSignal) (choices : Choices) :
    (Request.signal x msg choices).Makes (Hub.handleSignal x msg choices) := by
  cases msg with
  | identify p =>
    exact all_when <| all_then rfl fun _ => all_bind (all_when (all_perform rfl)) fun _ =>
      all_then rfl fun _ => all_ifSome (makes_broadcastUserList _)
  | joinChannel p => exact all_when (makes_switchChannel rfl x _ _)
  | createChannel p =>
    exact all_when <| all_then rfl fun _ => all_then rfl fun _ => all_then rfl fun _ =>
      makes_switchChannel rfl x _ _
  | pttDown => exact makes_handlePTTDown x choices
  | pttUp => exact makes_handlePTTUp x choices
  | alertTone p =>
    exact all_then rfl fun _ => all_ifSome fun _ => all_then rfl fun _ => all_perform rfl
  | allCall p => exact all_when <| all_then rfl fun _ => all_then rfl fun _ => all_perform rfl
  | location p =>
    exact all_when <| all_then rfl fun _ => all_then rfl fun _ => all_then rfl fun _ =>
      all_ifSome fun _ => all_perform rfl
  | ping payload => exact all_perform rfl
  | chatMessage p =>
    exact all_when <| all_then rfl fun _ => all_then rfl fun _ => all_then rfl fun _ =>
      all_then rfl fun _ => all_ifSome fun _ => all_perform rfl
  | videoCallStart p =>
    exact all_then rfl fun _ => all_then rfl fun _ => all_ifSome fun _ => all_perform rfl
  | videoCallEnd =>
    exact all_then rfl fun _ => all_then rfl fun _ => all_when <| all_ifSome fun _ =>
      all_perform rfl
  | videoJoin p =>
    exact all_then rfl fun _ => all_then rfl fun _ => all_ifSome fun _ => all_perform rfl
  | videoRelay kind p =>
    refine all_when (all_then rfl fun c => ?_)
    dsimp only
    split_ifs
    · exact all_then rfl fun _ => all_ifSome fun _ => all_perform rfl
    · exact all_then rfl fun _ => all_ifSome fun _ => all_perform rfl
  | other type => trivial

/-- What a handler can call is what its request says. -/
theorem makes_prog (r : Request) : r.Makes r.prog := by
  cases r with
  | connect x first =>
    exact all_then rfl fun _ => all_bind (all_ifSome fun ch => all_then rfl fun _ =>
      makes_broadcastUserList _ ch) fun _ => all_then rfl fun _ => all_then rfl fun _ =>
      all_then rfl fun _ => all_then rfl fun _ => all_then rfl fun _ =>
      all_bind (all_when (all_perform rfl)) fun _ => all_ifSome fun _ => all_perform rfl
  | signal x msg choices => exact makes_handleSignal x msg choices
  | audio x data => exact makes_handleBinaryAudio x data
  | disconnect x =>
    exact all_then rfl fun _ => all_ifSome fun ch => all_then rfl fun _ =>
      all_bind (makes_broadcastUserList _ ch) fun _ => all_bind (makes_endVideoOf rfl ch x)
      fun _ => all_when <| all_then rfl fun c => makes_announceIdle _ ch c
  | totExpires ch timer =>
    exact all_then rfl fun _ => all_ifSome fun _ => all_bind (makes_finishRecording rfl ch)
      fun _ => all_then rfl fun _ => all_then rfl fun c => makes_announceIdle _ ch c
  | datagram data =>
    show All _ (Hub.roipDatagram data)
    unfold Hub.roipDatagram
    dsimp only
    split
    · trivial
    · exact all_then rfl fun _ => all_when (all_perform rfl)

theorem serves_prog (r : Request) : r.Serves r.prog :=
  (makes_prog r).mono fun _ => HubOp.servedBy_of_madeBy

end Served

/-- The request that each thread serves or has served last. -/
def servedObserver : Observer (Thread → Option Request) where
  starts := fun r g => Function.update g r.thread (some r)
  sees := fun _ _ _ _ g => g

/-- Every handler in progress was started by a request, and its calls satisfy what `P` says of
the calls for that request. -/
def ServedWith (P : Request → HubOp → Prop) (s : Server (Thread → Option Request)) : Prop :=
  ∀ i, s.pool.Idle i ∨ ∃ r, s.history i = some r ∧ r.thread = i ∧ (s.pool.task i).All (P r)

namespace ServedWith

variable {P : Request → HubOp → Prop} {s t : Server (Thread → Option Request)} {e : ServerEvent}

theorem init (h : Hub) : ServedWith P (Server.init h fun _ => none) := fun _ => Or.inl rfl

theorem step (hP : ∀ r : Request, r.prog.All (P r)) (hs : ServedWith P s)
    (h : serverStep servedObserver s e = some t) : ServedWith P t := by
  intro i
  cases e with
  | serve r =>
    obtain ⟨_, _, _, _, htask, hothers⟩ := serverStep_serve h
    have hhist : t.history = Function.update s.history r.thread (some r) := (serverStep_starts h).2
    by_cases hi : i = r.thread
    · refine Or.inr ⟨r, ?_, hi.symm, ?_⟩
      · rw [hhist, hi, Function.update_self]
      · rw [hi, htask]
        exact hP r
    · rw [Pool.Idle, hothers i hi, hhist, Function.update_of_ne hi]
      exact hs i
  | advance j =>
    obtain ⟨op, k, hk, _, _, hhist, htask, hothers⟩ := serverStep_advance h
    have hsame : t.history = s.history := hhist
    by_cases hi : i = j
    · subst hi
      rcases hs i with hidle | ⟨r, hr, hthread, hcalls⟩
      · exact absurd hidle (Pool.not_idle_of_call hk)
      · rw [hk] at hcalls
        refine Or.inr ⟨r, hsame ▸ hr, hthread, ?_⟩
        rw [htask]
        exact hcalls.2 _
    · rw [Pool.Idle, hothers i hi, hsame]
      exact hs i
  | timerFires ch timer =>
    obtain ⟨_, _, hhist, htask⟩ := serverStep_timerFires h
    rw [Pool.Idle, htask, hhist]
    exact hs i
  | tick d =>
    obtain ⟨_, _, hhist, htask⟩ := serverStep_tick h
    rw [Pool.Idle, htask, hhist]
    exact hs i

/-- The request behind the next call of a thread. -/
theorem request (hs : ServedWith P s) {i : Thread} {op : HubOp} {k : op.Res → HubProg Unit}
    (hk : s.pool.task i = .call op k) : ∃ r, s.history i = some r ∧ r.thread = i ∧ P r op := by
  rcases hs i with hidle | ⟨r, hr, hthread, hcalls⟩
  · exact absurd hidle (Pool.not_idle_of_call hk)
  · rw [hk] at hcalls
    exact ⟨r, hr, hthread, hcalls.1⟩

end ServedWith

/-- Every handler in progress was started by a request, which makes only calls of that request. -/
def Serving (s : Server (Thread → Option Request)) : Prop :=
  ∀ i, s.pool.Idle i ∨ ∃ r, s.history i = some r ∧ r.thread = i ∧ r.Serves (s.pool.task i)

namespace Serving

variable {s t : Server (Thread → Option Request)} {e : ServerEvent}

theorem init (h : Hub) : Serving (Server.init h fun _ => none) := ServedWith.init h

theorem step (hs : Serving s) (h : serverStep servedObserver s e = some t) : Serving t :=
  ServedWith.step serves_prog hs h

theorem request (hs : Serving s) {i : Thread} {op : HubOp} {k : op.Res → HubProg Unit}
    (hk : s.pool.task i = .call op k) :
    ∃ r, s.history i = some r ∧ r.thread = i ∧ op.servedBy r = true :=
  ServedWith.request hs hk

end Serving

end TwoWayRadio

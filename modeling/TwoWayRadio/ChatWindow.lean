import TwoWayRadio.HubEffects
import TwoWayRadio.HubRequests
import TwoWayRadio.OwnChannel
import TwoWayRadio.SlidingWindow
import TwoWayRadio.Utf8

/-! The chat histories: what the hub accepts for them, and the window of it that each channel
keeps, whichever handlers run at the same time. -/
namespace TwoWayRadio
open Interleaving Transition

/-- Cutting a text at 500 bytes leaves none of it only if there is none. -/
theorem take_toUTF8_eq_nil (text : String) : text.toUTF8.toList.take 500 = [] ↔ text = "" := by
  rw [Utf8.toList_toUTF8, List.take_eq_nil_iff, Utf8.encode_eq_nil, String.toList_eq_nil_iff]
  exact or_iff_right (by decide)

/-- What is accepted for the history of a channel: a message that has text after trimming or
carries a file, or a transmission that is saved when its speaker releases the key. -/
inductive Post
  | chat (p : ChatMessagePayload String)
  | voice (ch : ChannelID) (r : VoiceRecording)

/-- The post is acceptable, and `m` is the entry made of it. -/
def Post.Makes (m : ChatMessagePayload Bytes) : Post → Prop
  | chat p => (trimSpace p.text ≠ "" ∨ p.fileUrl ≠ "") ∧
      m.text = (trimSpace p.text).toUTF8.toList.take 500 ∧ m.fileUrl = p.fileUrl ∧
      m.fileName = p.fileName ∧ m.fileType = p.fileType
  | voice ch r => ∃ speaker, m = Hub.voiceEntry ch speaker r

/-- The post that a request brings along. -/
def Request.post : Request → Option Post
  | signal _ (.chatMessage p) _ =>
    if p.ok = true ∧ (trimSpace p.value.text ≠ "" ∨ p.value.fileUrl ≠ "") then some (.chat p.value)
    else none
  | _ => none

/-- What a handler of the request has accepted and not yet appended, after one more call. -/
def Request.owes (r : Request) : (op : HubOp) → op.Res → Option Post → Option Post
  | .onTransmissionEnd ch, saved, owed =>
    match r with
    | signal _ .pttUp _ => saved.map (.voice ch)
    | _ => owed
  | .appendChat .., _, _ | .appendVoice .., _, _ => none
  | _, _, owed => owed

/-- The entry that a call appends to a history. -/
def HubOp.entry : HubOp → Option (ChatMessagePayload Bytes)
  | appendChat _ m | appendVoice _ m => some m
  | _ => none

/-- `accepted` lists the posts for which a handler has run its critical section, in that order,
each with the entry that it appended. -/
structure ChatLog where
  serving : Thread → Option Request := fun _ => none
  owed : Thread → Option Post := fun _ => none
  accepted : List (Post × ChatMessagePayload Bytes) := []

namespace ChatLog

def starts (r : Request) (g : ChatLog) : ChatLog :=
  { g with
    serving := Function.update g.serving r.thread (some r)
    owed := Function.update g.owed r.thread r.post }

/-- Only a handler that owes a post has its entry accepted. -/
def sees (i : Thread) (op : HubOp) (a : op.Res) (g : ChatLog) : ChatLog :=
  { g with
    owed := Function.update g.owed i ((g.serving i).bind fun r => r.owes op a (g.owed i))
    accepted := g.accepted ++
      ((g.owed i).bind fun post => op.entry.map fun m => (post, m)).toList }

/-- The entries accepted for a channel, oldest first. -/
def acceptedFor (g : ChatLog) (c : ChannelID) : List (ChatMessagePayload Bytes) :=
  SlidingWindow.entriesOf (fun m => m.channelID) (g.accepted.map Prod.snd) c

end ChatLog

def chatLogObserver : Observer ChatLog where
  starts := ChatLog.starts
  sees := fun i op a _ g => g.sees i op a

/-- What a handler knows of its client's channel, and the post that it owes. -/
structure Posting where
  known : List ChannelID
  owed : Option Post

/-- An append is of the post that the handler owes, on the channel that the entry names. -/
def HubOp.Pays (i : Thread) (st : Posting) : HubOp → Prop
  | appendChat y m => i = .client y ∧ m.channelID ∈ st.known ∧
      ∃ post, st.owed = some post ∧ post.Makes m
  | appendVoice ch m => m.channelID = ch ∧ ∃ post, st.owed = some post ∧ post.Makes m
  | _ => True

def posting (r : Request) : Prog.Protocol HubOp.Res Posting where
  ok := fun st op => op.Pays r.thread st
  next := fun st op a => ⟨op.learns a st.known, r.owes op a st.owed⟩
  can := fun _ _ => True

section Posting

open Prog

variable {x : ClientRef} {r : Request} {st : Posting}

/-- The requests whose handler can append to a history. -/
def Request.posts : Request → Bool
  | signal _ (.chatMessage _) _ | signal _ .pttUp _ => true
  | _ => false

theorem entry_of_servedBy {op : HubOp} (hr : r.posts = false) (hop : op.servedBy r = true) :
    op.entry = none := by
  cases op with
  | appendChat y m =>
    simp only [HubOp.servedBy] at hop
    split at hop
    · cases hr
    · cases hop
  | appendVoice ch m =>
    simp only [HubOp.servedBy] at hop
    split at hop
    · cases hr
    · cases hop
  | _ => rfl

/-- No other handler comes to owe anything. -/
theorem owes_of_servedBy {op : HubOp} (hr : r.posts = false) (hop : op.servedBy r = true)
    (a : op.Res) (owed : Option Post) : r.owes op a owed = owed := by
  have hentry := entry_of_servedBy hr hop
  cases op with
  | appendChat y m => cases hentry
  | appendVoice ch m => cases hentry
  | onTransmissionEnd ch =>
    simp only [Request.owes]
    split
    · cases hr
    · rfl
  | _ => rfl

theorem posting_of_silent (hr : r.posts = false) (known : List ChannelID) :
    r.prog.Follows (posting r) (fun _ st => st.owed = none) ⟨known, none⟩ := by
  refine follows_of_kept (fun st op hst hop => ⟨?_, fun a => ?_⟩) (serves_prog r) rfl
  · have hentry := entry_of_servedBy hr hop
    cases op with
    | appendChat y m => cases hentry
    | appendVoice ch m => cases hentry
    | _ => trivial
  · exact (owes_of_servedBy hr hop a st.owed).trans hst

/-- A chat message comes to one append if it is acceptable, and to none if it is not. -/
theorem posting_chatSignal (p : Decoded (ChatMessagePayload String)) (choices : Choices) :
    (Hub.chatSignal x p choices).Follows (posting (.signal x (.chatMessage p) choices))
      (fun _ st => st.owed = none) ⟨[], (Request.signal x (.chatMessage p) choices).post⟩ := by
  have htext : (trimSpace p.value.text).toUTF8.toList.take 500 ≠ [] ↔ trimSpace p.value.text ≠ "" :=
    not_congr (take_toUTF8_eq_nil _)
  unfold Hub.chatSignal when Request.post
  simp only [htext]
  split_ifs with hok
  · refine follows_then trivial fun now _ => follows_then trivial fun c _ =>
      follows_then trivial fun stamp _ => ?_
    refine follows_then ⟨rfl, List.mem_cons_self, _, rfl, hok.2, rfl, rfl, rfl, rfl⟩ fun ch _ => ?_
    cases ch with
    | none => rfl
    | some ch => exact follows_then trivial fun _ _ => rfl
  · rfl

/-- A release comes to one append if it saves a transmission. -/
theorem posting_handlePTTUp (choices : Choices) :
    (Hub.handlePTTUp x).Follows (posting (.signal x .pttUp choices))
      (fun _ st => st.owed = none) ⟨[], none⟩ := by
  refine follows_then trivial fun ch _ => ?_
  cases ch with
  | none => rfl
  | some ch =>
    refine follows_then trivial fun released _ => ?_
    unfold when
    split_ifs
    swap
    · rfl
    refine follows_then trivial fun saved _ => ?_
    cases saved with
    | none =>
      exact follows_then trivial fun c _ => follows_then trivial fun _ _ =>
        follows_then trivial fun _ _ => follows_then trivial fun _ _ => rfl
    | some recording =>
      refine follows_then trivial fun _ _ => follows_then trivial fun c _ => ?_
      refine follows_then ⟨rfl, _, rfl, c, rfl⟩ fun _ _ => ?_
      exact follows_then trivial fun _ _ =>
        follows_then trivial fun _ _ => follows_then trivial fun _ _ => rfl

theorem posting_prog (r : Request) :
    r.prog.Follows (posting r) (fun _ st => st.owed = none) ⟨[], r.post⟩ := by
  by_cases hr : r.posts = false
  · have hpost : r.post = none := by
      unfold Request.post
      split
      · cases hr
      · rfl
    rw [hpost]
    exact posting_of_silent hr []
  · cases r with
    | signal y msg choices =>
      cases msg with
      | chatMessage p => exact posting_chatSignal p choices
      | pttUp => exact posting_handlePTTUp choices
      | _ => exact absurd rfl hr
    | _ => exact absurd rfl hr

end Posting

section Window

variable {h : Hub} {op : HubOp} {m : ChatMessagePayload Bytes}

/-- Both appends cut the history back to its last thirty entries. -/
theorem trimHistory_eq (hist : List (ChatMessagePayload Bytes)) :
    Hub.trimHistory hist = hist.rtake 30 := by
  unfold Hub.trimHistory List.rtake
  split_ifs with hlong
  · rfl
  · rw [show hist.length - 30 = 0 by omega, List.drop_zero]

theorem chatHistory_run_of_quiet (hop : op.entry = none) :
    (op.run h).2.chatHistory = h.chatHistory := by
  ext1 c
  apply chatHistory_run
  intro happ
  cases op with
  | appendChat y m => cases hop
  | appendVoice ch m => cases hop
  | _ => cases happ

theorem chatHistory_run_of_entry (hop : op.entry = some m)
    (hat : op.appends h = some m.channelID) :
    (op.run h).2.chatHistory = Function.update h.chatHistory m.channelID
      ((h.chatHistory m.channelID ++ [m]).rtake 30) := by
  rw [← trimHistory_eq]
  cases op with
  | appendChat y m' =>
    obtain rfl := Option.some.inj hop
    have hcurrent : (h.heap y).currentChannelID = m'.channelID := Option.some.inj hat
    show (h.pushHistory _ m').chatHistory = _
    rw [hcurrent]
    rfl
  | appendVoice ch m' =>
    obtain rfl := Option.some.inj hop
    obtain rfl : ch = m'.channelID := Option.some.inj hat
    rfl
  | _ => cases hop

/-- A handler that appends pays what it owes, and to the channel that the entry names. -/
theorem HubOp.Pays.append {i : Thread} {st : Posting} (hpays : op.Pays i st)
    (hknows : ∀ x, i = .client x → h.Knows x st.known) (hop : op.entry = some m) :
    (∃ post, st.owed = some post ∧ post.Makes m) ∧ op.appends h = some m.channelID := by
  cases op with
  | appendChat y m' =>
    obtain rfl := Option.some.inj hop
    obtain ⟨hthread, hknown, hpost⟩ := hpays
    exact ⟨hpost, congrArg some (hknows y hthread _ hknown).symm⟩
  | appendVoice ch m' =>
    obtain rfl := Option.some.inj hop
    exact ⟨hpays.2, congrArg some hpays.1.symm⟩
  | _ => cases hop

theorem HubOp.learns_mono {known known' : List ChannelID} (a : op.Res)
    (hmem : ∀ ch ∈ known, ch ∈ known') : ∀ ch ∈ op.learns a known, ch ∈ op.learns a known' := by
  have happend : ∀ (l : List ChannelID), ∀ ch ∈ l ++ known, ch ∈ l ++ known' := by
    intro l ch hch
    rcases List.mem_append.mp hch with hl | hold
    · exact List.mem_append_left known' hl
    · exact List.mem_append_right l (hmem ch hold)
  cases op with
  | register y first => exact fun _ hch => hch
  | setCurrentChannel y new => exact fun _ hch => hch
  | fields y => exact happend [a.currentChannelID]
  | unregister y => exact happend _
  | currentChannel y => exact happend _
  | appendChat y p => exact happend _
  | startVideo y p => exact happend _
  | lookupSwitch y new => exact happend _
  | endVideo y => exact happend _
  | _ => exact hmem

end Window

section Run

variable {s t : Server ChatLog} {e : ServerEvent}

/-- Every handler in progress pays what it owes, and the histories are the windows of what has
been accepted. -/
structure HistoriesKept (s : Server ChatLog) : Prop where
  keeps : KeepsToChannels s
  handlers : ∀ i, (s.pool.Idle i ∧ s.history.owed i = none) ∨
    ∃ r known, s.history.serving i = some r ∧ r.thread = i ∧
      (∀ x, i = .client x → s.hub.Knows x known) ∧
      (s.pool.task i).Follows (posting r) (fun _ st => st.owed = none) ⟨known, s.history.owed i⟩
  window : s.hub.chatHistory =
    SlidingWindow.window 30 (fun m => m.channelID) (s.history.accepted.map Prod.snd)
  makes : ∀ e ∈ s.history.accepted, e.1.Makes e.2

/-- What a handler knows of its client's channel stays true as it makes its calls. -/
theorem KeepsToChannels.knows_advance (hs : KeepsToChannels s) {x : ClientRef} {op : HubOp}
    {k : op.Res → HubProg Unit} (hk : s.pool.task (.client x) = .call op k)
    {known : List ChannelID} (hknows : s.hub.Knows x known) :
    (op.run s.hub).2.Knows x (op.learns (op.run s.hub).1 known) := by
  intro ch hch
  have hcurrent : s.hub.Knows x [(s.hub.heap x).currentChannelID] :=
    fun _ hmem => List.mem_singleton.mp hmem
  apply HubOp.knows_run (hs.keepsTo hk) hcurrent
  apply HubOp.learns_mono _ (fun c hc => ?_) ch hch
  rw [hknows c hc]
  exact List.mem_singleton_self _

/-- The histories after a call that the handler of a request makes. -/
theorem HistoriesKept.call (hs : HistoriesKept s) {i : Thread} {op : HubOp} {known : List ChannelID}
    (hpays : op.Pays i ⟨known, s.history.owed i⟩)
    (hknows : ∀ x, i = .client x → s.hub.Knows x known) (a : op.Res) :
    (op.run s.hub).2.chatHistory = SlidingWindow.window 30 (fun m => m.channelID)
      ((s.history.sees i op a).accepted.map Prod.snd) ∧
    ∀ e ∈ (s.history.sees i op a).accepted, e.1.Makes e.2 := by
  cases hentry : op.entry with
  | none =>
    have hsame : (s.history.sees i op a).accepted = s.history.accepted := by
      simp [ChatLog.sees, hentry]
    rw [chatHistory_run_of_quiet hentry, hsame]
    exact ⟨hs.window, hs.makes⟩
  | some m =>
    obtain ⟨⟨post, howed, hmakes⟩, hat⟩ := hpays.append hknows hentry
    have howed : s.history.owed i = some post := howed
    have hone : (s.history.sees i op a).accepted = s.history.accepted ++ [(post, m)] := by
      simp [ChatLog.sees, hentry, howed]
    rw [chatHistory_run_of_entry hentry hat, hone, List.map_append, List.map_singleton, hs.window]
    constructor
    · rw [SlidingWindow.window_append]
    · intro e he
      rcases List.mem_append.mp he with hold | hnew
      · exact hs.makes e hold
      · rw [List.mem_singleton.mp hnew]
        exact hmakes

/-- What a handler knows of its client's channel, another thread does not make untrue. -/
theorem KeepsToChannels.knows_other (hs : KeepsToChannels s)
    (h : serverStep chatLogObserver s e = some t) {i : Thread} (hi : e.thread ≠ some i)
    {known : List ChannelID} (hknows : ∀ x, i = .client x → s.hub.Knows x known) :
    ∀ x, i = .client x → t.hub.Knows x known := by
  intro x hx ch hch
  rw [hs.current_step h (hx ▸ hi)]
  exact hknows x hx ch hch

/-- A handler that a step does not move pays what it owes as before. -/
theorem HistoriesKept.handler_other (hs : HistoriesKept s)
    (h : serverStep chatLogObserver s e = some t) {i : Thread} (hi : e.thread ≠ some i)
    (hserving : t.history.serving i = s.history.serving i)
    (howed : t.history.owed i = s.history.owed i) :
    (t.pool.Idle i ∧ t.history.owed i = none) ∨
      ∃ r known, t.history.serving i = some r ∧ r.thread = i ∧
        (∀ x, i = .client x → t.hub.Knows x known) ∧
        (t.pool.task i).Follows (posting r) (fun _ st => st.owed = none)
          ⟨known, t.history.owed i⟩ := by
  rw [Pool.Idle, serverStep_task h hi, hserving, howed]
  rcases hs.handlers i with hidle | ⟨r, known, hr, hthread, hknows, hfollows⟩
  · exact Or.inl hidle
  · exact Or.inr ⟨r, known, hr, hthread, hs.keeps.knows_other h hi hknows, hfollows⟩

/-- A step of no handler leaves the histories and the log alone. -/
theorem HistoriesKept.aside (hs : HistoriesKept s) (h : serverStep chatLogObserver s e = some t)
    (he : e.thread = none) (hhist : t.history = s.history)
    (hchat : t.hub.chatHistory = s.hub.chatHistory) : HistoriesKept t := by
  refine ⟨hs.keeps.step h, fun i => ?_, ?_, ?_⟩
  · refine hs.handler_other h ?_ (by rw [hhist]) (by rw [hhist])
    rw [he]
    exact (Option.some_ne_none i).symm
  · rw [hchat, hhist]
    exact hs.window
  · rw [hhist]
    exact hs.makes

/-- A handler starts with the post of its request. -/
theorem HistoriesKept.serve {r : Request} (hs : HistoriesKept s)
    (h : serverStep chatLogObserver s (.serve r) = some t) : HistoriesKept t := by
  obtain ⟨_, _, _, _, htask, _⟩ := serverStep_serve h
  obtain ⟨hhub, hhist⟩ := serverStep_starts h
  have hstarts : t.history = s.history.starts r := hhist
  refine ⟨hs.keeps.step h, fun i => ?_, ?_, ?_⟩
  · by_cases hi : i = r.thread
    · refine Or.inr ⟨r, [], ?_, hi.symm, fun _ _ _ hch => (List.not_mem_nil hch).elim, ?_⟩
      · rw [hstarts, hi]
        exact Function.update_self ..
      · rw [hstarts, hi, htask]
        simp only [ChatLog.starts, Function.update_self]
        exact posting_prog r
    · -- another thread's handler knows what it knew
      apply hs.handler_other h fun heq => hi (Option.some.inj heq).symm
      · rw [hstarts]
        exact Function.update_of_ne hi ..
      · rw [hstarts]
        exact Function.update_of_ne hi ..
  · rw [hhub, hstarts]
    exact hs.window
  · rw [hstarts]
    exact hs.makes

/-- A handler makes a call that it may make, and so pays if it appends. -/
theorem HistoriesKept.advance {j : Thread} (hs : HistoriesKept s)
    (h : serverStep chatLogObserver s (.advance j) = some t) : HistoriesKept t := by
  obtain ⟨op, k, hk, _, hhub, hhist, htask, _⟩ := serverStep_advance h
  have hsees : t.history = s.history.sees j op (op.run s.hub).1 := hhist
  rcases hs.handlers j with ⟨hidle, _⟩ | ⟨r, known, hr, hthread, hknows, hfollows⟩
  · exact absurd hidle (Pool.not_idle_of_call hk)
  rw [hk] at hfollows
  obtain ⟨hpays, hrest⟩ := hfollows
  have hcall := hs.call (hthread ▸ hpays) hknows (op.run s.hub).1
  refine ⟨hs.keeps.step h, fun i => ?_, ?_, ?_⟩
  · by_cases hi : i = j
    · subst hi
      refine Or.inr ⟨r, op.learns (op.run s.hub).1 known, ?_, hthread, fun x hx => ?_, ?_⟩
      · rw [hsees]
        exact hr
      · rw [hhub]
        subst hx
        exact hs.keeps.knows_advance hk (hknows x rfl)
      · have howed : t.history.owed i = r.owes op (op.run s.hub).1 (s.history.owed i) := by
          rw [hsees]
          simp only [ChatLog.sees, Function.update_self, hr, Option.bind_some]
        rw [htask, howed]
        exact hrest _ trivial
    · apply hs.handler_other h fun heq => hi (Option.some.inj heq).symm
      · rw [hsees]
        rfl
      · rw [hsees]
        exact Function.update_of_ne hi ..
  · rw [hhub, hsees]
    exact hcall.1
  · rw [hsees]
    exact hcall.2

/-- Only the handlers' own calls append, and each appends what its request has brought. -/
theorem HistoriesKept.step (hs : HistoriesKept s) (h : serverStep chatLogObserver s e = some t) :
    HistoriesKept t := by
  cases e with
  | serve r => exact hs.serve h
  | advance j => exact hs.advance h
  | timerFires ch timer =>
    obtain ⟨hf, _, hhist, _⟩ := serverStep_timerFires h
    obtain ⟨c, c', _, _, hhub⟩ := Hub.fireTimer_eq hf
    refine hs.aside h rfl hhist ?_
    rw [hhub]
  | tick d =>
    obtain ⟨hhub, _, hhist, _⟩ := serverStep_tick h
    refine hs.aside h rfl hhist ?_
    rw [hhub]

theorem HistoriesKept.init (cfg : Config) (recorder : Option AudioRecorder) (roipRelay : Bool)
    (heap : Clients) (now : ℤ) :
    HistoriesKept (Server.init (newHub cfg recorder roipRelay heap now) {}) where
  keeps := .init _ _
  handlers := fun _ => Or.inl ⟨rfl, rfl⟩
  window := rfl
  makes := fun _ he => (List.not_mem_nil he).elim

theorem HistoriesKept.run {cfg : Config} {recorder : Option AudioRecorder} {roipRelay : Bool}
    {heap : Clients} {now : ℤ} {es : List ServerEvent}
    (hrun : Run (serverStep chatLogObserver)
      (Server.init (newHub cfg recorder roipRelay heap now) {}) es s) : HistoriesKept s :=
  hrun.invariant (fun _ _ _ hs h => hs.step h) (.init cfg recorder roipRelay heap now)

/-- Whatever the handlers do at the same time, the history of each channel is the last thirty of
the entries accepted for it, in the order in which they were appended, and names that channel only.
Every accepted post has made its own entry, and no handler ends without having appended what it
accepted. -/
theorem chat_window {cfg : Config} {recorder : Option AudioRecorder} {roipRelay : Bool}
    {heap : Clients} {now : ℤ} {es : List ServerEvent} {s : Server ChatLog}
    (hrun : Run (serverStep chatLogObserver)
      (Server.init (newHub cfg recorder roipRelay heap now) {}) es s) :
    (∀ c, s.hub.chatHistory c = (s.history.acceptedFor c).rtake
        (min 30 (s.history.acceptedFor c).length) ∧
      ∀ m ∈ s.hub.chatHistory c, m.channelID = c) ∧
    (∀ e ∈ s.history.accepted, e.1.Makes e.2) ∧
    ∀ i, s.pool.Idle i → s.history.owed i = none := by
  have hkept := HistoriesKept.run hrun
  refine ⟨fun c => ⟨?_, fun m hm => ?_⟩, hkept.makes, fun i hidle => ?_⟩
  · rw [hkept.window, SlidingWindow.rtake_min_length]
    rfl
  · rw [hkept.window] at hm
    exact (SlidingWindow.mem_window 30 _ hm).2
  · rcases hkept.handlers i with hnone | ⟨r, known, _, _, _, hfollows⟩
    · exact hnone.2
    · rw [hidle] at hfollows
      exact hfollows

end Run

def typed (text : String) : Decoded (ChatMessagePayload String) :=
  ⟨{ channelID := 0, senderID := "", callsign := "", text := text }, true⟩

/-- Units 0 and 1 write on channel 1 at the same time; unit 1 is the first to append. -/
def writeAtOnce : List ServerEvent :=
  uninterrupted (.connect 0 0) 10 ++ uninterrupted (.connect 1 0) 10 ++
    [.serve (.signal 0 (.chatMessage (typed " over ")) {}),
      .serve (.signal 1 (.chatMessage (typed "out")) {})] ++
    List.replicate 3 (.advance (.client 0)) ++ List.replicate 5 (.advance (.client 1)) ++
    List.replicate 2 (.advance (.client 0))

theorem chat_window_writeAtOnce :
    ∃ s, Run (serverStep chatLogObserver)
        (Server.init (newHub defaultConfig none false sampleClients 0) {}) writeAtOnce s ∧
      s.history.accepted.length = 2 ∧ s.hub.chatHistory 1 = (s.history.acceptedFor 1).rtake
        (min 30 (s.history.acceptedFor 1).length) := by
  have hrun := run_get (serverStep chatLogObserver)
    (Server.init (newHub defaultConfig none false sampleClients 0) {}) writeAtOnce
    (by decide +kernel)
  exact ⟨_, hrun, by decide +kernel, ((chat_window hrun).1 1).1⟩

end TwoWayRadio

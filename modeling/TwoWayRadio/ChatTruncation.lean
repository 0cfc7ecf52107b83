import TwoWayRadio.ChatWindow

/-! The cut of chat texts at 500 bytes, and what it leaves of what the sender typed. -/
namespace TwoWayRadio
open Interleaving Transition

/-- The chat text that a call stores or sends. -/
def HubOp.chatText (op : HubOp) : Option Bytes :=
  match op, op.message with
  | appendChat _ m, _ => some m.text
  | _, some (.chatMessage m) => some m.text
  | _, _ => none

/-- The JSON encoder sends each byte that is no part of a character as U+FFFD, so that what the
recipients decode is what a reader makes of the bytes. -/
structure PreservesText (typed : String) (text : Bytes) : Prop where
  valid : Utf8.IsValid text
  short : text.length ≤ 500
  begins : ∃ kept, kept <+: (trimSpace typed).toList ∧ text = Utf8.encode kept
  faithful : ∀ c ∈ Utf8.read text, c ∈ typed.toList

/-- What the chat handler makes of a text. -/
def cutText (typed : String) : Bytes := (trimSpace typed).toUTF8.toList.take 500

section Cut

variable {typed : String} {text : Bytes}

theorem mem_of_mem_trimSpace {c : Char} (hc : c ∈ (trimSpace typed).toList) : c ∈ typed.toList := by
  unfold trimSpace at hc
  rw [String.toList_ofList, List.mem_reverse] at hc
  have hkept := List.mem_reverse.mp ((List.dropWhile_sublist isSpace).mem hc)
  exact (List.dropWhile_sublist isSpace).mem hkept

theorem cutText_eq (typed : String) :
    cutText typed = (Utf8.encode (trimSpace typed).toList).take 500 :=
  congrArg (List.take 500) (Utf8.toList_toUTF8 (trimSpace typed))

/-- The recipients read a prefix of the trimmed text, and U+FFFD for each byte that the cut leaves
of the character it splits. -/
theorem read_cutText (typed : String) :
    ∃ kept k, kept <+: (trimSpace typed).toList ∧
      Utf8.read (cutText typed) = kept ++ List.replicate k '\ufffd' ∧
      (k = 0 ↔ Utf8.Boundary 500 (trimSpace typed).toList) := by
  obtain ⟨kept, part, hkept, htorn, hcut, hboundary⟩ :=
    Utf8.take_encode 500 (trimSpace typed).toList
  refine ⟨kept, part.length, hkept, ?_, ?_⟩
  · rw [cutText_eq, hcut, Utf8.read_text_torn kept htorn]
  · rw [List.length_eq_zero_iff, hboundary]

theorem preservesText_cutText (typed : String) :
    PreservesText typed (cutText typed) ↔ Utf8.Boundary 500 (trimSpace typed).toList := by
  obtain ⟨kept, part, hkept, htorn, hcut, hboundary⟩ :=
    Utf8.take_encode 500 (trimSpace typed).toList
  rw [← cutText_eq] at hcut
  constructor
  · intro h
    have hvalid := h.valid
    rw [hcut] at hvalid
    exact hboundary.mp (Utf8.nil_of_isValid htorn hvalid)
  · intro h
    have htext : cutText typed = Utf8.encode kept := by
      rw [hcut, hboundary.mpr h, List.append_nil]
    refine ⟨⟨kept, htext⟩, List.length_take_le 500 _, ⟨kept, hkept, htext⟩, fun c hc => ?_⟩
    rw [htext, Utf8.read_encode] at hc
    exact mem_of_mem_trimSpace (hkept.subset hc)

end Cut

section Handler

open Prog

theorem all_chatSignal {P : HubOp → Prop} (client : ClientRef)
    (p : Decoded (ChatMessagePayload String)) (choices : Choices)
    (hquiet : ∀ op, op.chatText = none → P op)
    (hchat : ∀ op, op.chatText = some (cutText p.value.text) → P op) :
    (Hub.chatSignal client p choices).All P := by
  unfold Hub.chatSignal
  refine all_when <| all_then (hquiet _ rfl) fun now => all_then (hquiet _ rfl) fun c =>
    all_then (hquiet _ rfl) fun stamp => all_then (hchat _ rfl) fun ch => all_ifSome fun ch => ?_
  exact all_perform (hchat _ rfl)

/-- A text that the cut leaves anything of is stored. -/
theorem exists_chatText_of_all {P : HubOp → Prop} {client : ClientRef}
    {p : ChatMessagePayload String} {choices : Choices} (htext : cutText p.text ≠ [])
    (hall : (Hub.chatSignal client ⟨p, true⟩ choices).All P) :
    ∃ op, P op ∧ op.chatText = some (cutText p.text) := by
  unfold Hub.chatSignal when at hall
  rw [if_pos ⟨rfl, Or.inl htext⟩] at hall
  obtain ⟨_, hfields⟩ := hall
  obtain ⟨_, hclock⟩ := hfields 0
  obtain ⟨_, happend⟩ := hclock (newClient "" "")
  exact ⟨_, (happend 0).1, rfl⟩

/-- The handler of a chat message stores and sends a text that is valid UTF-8, at most 500 bytes
long, a prefix of the trimmed text and read as characters that were typed, exactly when no
character of the trimmed text extends over its 500th byte. -/
theorem chat_text_preserved_iff (client : ClientRef) (p : ChatMessagePayload String)
    (choices : Choices) :
    ((Request.signal client (.chatMessage ⟨p, true⟩) choices).prog.All fun op =>
      ∀ text ∈ op.chatText, PreservesText p.text text) ↔
    Utf8.Boundary 500 (trimSpace p.text).toList := by
  rw [← preservesText_cutText]
  constructor
  · intro hall
    by_cases htext : cutText p.text = []
    · -- nothing is stored for want of a text, which no cut splits
      rw [preservesText_cutText, (take_toUTF8_eq_nil _).mp htext]
      exact fun b hb => by cases hb
    · obtain ⟨op, hop, hstored⟩ := exists_chatText_of_all htext hall
      exact hop _ hstored
  · intro hkept
    refine all_chatSignal client ⟨p, true⟩ choices (fun op hnone => ?_) fun op hsome => ?_
    · rw [hnone]
      exact fun text htext => by cases htext
    · rw [hsome]
      intro text htext
      rwa [← Option.some.inj htext]

end Handler

/-- In every run, each entry of a history has been made of a post, and keeps the text of a chat
message exactly when the cut splits no character of it. -/
theorem stored_text_preserved {cfg : Config} {recorder : Option AudioRecorder} {roipRelay : Bool}
    {heap : Clients} {now : ℤ} {es : List ServerEvent} {s : Server ChatLog}
    (hrun : Run (serverStep chatLogObserver)
      (Server.init (newHub cfg recorder roipRelay heap now) {}) es s) (c : ChannelID)
    {m : ChatMessagePayload Bytes} (hm : m ∈ s.hub.chatHistory c) :
    ∃ post : Post, post.Makes m ∧ ∀ p, post = .chat p →
      (PreservesText p.text m.text ↔ Utf8.Boundary 500 (trimSpace p.text).toList) := by
  have hkept := HistoriesKept.run hrun
  rw [hkept.window] at hm
  obtain ⟨e, he, rfl⟩ := List.mem_map.mp (SlidingWindow.mem_window 30 _ hm).1
  have hmakes := hkept.makes e he
  refine ⟨e.1, hmakes, fun p hp => ?_⟩
  rw [hp] at hmakes
  have htext : e.2.text = cutText p.text := hmakes.2.1
  rw [htext, preservesText_cutText]

/-- An ASCII letter before 250 letters of two bytes each: byte 500 is the second of a letter. -/
def oddLetters : ChatMessagePayload String :=
  { channelID := 0, senderID := "", callsign := "",
    text := String.ofList ('a' :: List.replicate 250 'é') }

theorem chat_text_preserved_fails :
    ¬ (Request.signal 0 (.chatMessage ⟨oddLetters, true⟩) {}).prog.All fun op =>
      ∀ text ∈ op.chatText, PreservesText oddLetters.text text := by
  have htrim : (trimSpace oddLetters.text).toList = 'a' :: List.replicate 250 'é' := by
    unfold oddLetters trimSpace
    rw [String.toList_ofList, String.toList_ofList]
    decide +kernel
  have hsplit : ¬ Utf8.Boundary 500 (trimSpace oddLetters.text).toList := by
    rw [htrim]
    decide +kernel
  intro hall
  have hsome : cutText oddLetters.text ≠ [] := by
    rw [cutText_eq, htrim]
    decide +kernel
  obtain ⟨op, hop, hstored⟩ := exists_chatText_of_all hsome hall
  exact hsplit ((preservesText_cutText _).mp (hop _ hstored))

end TwoWayRadio

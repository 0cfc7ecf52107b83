import TwoWayRadio.Recorder
import TwoWayRadio.LexicalPaths

/-! Where a recording is written, and which path its eviction removes. -/
namespace TwoWayRadio

open Filepath

section Decimals

theorem toList_toString (n : ℤ) :
    (toString n).toList =
      if 0 ≤ n then Nat.toDigits 10 n.toNat else '-' :: Nat.toDigits 10 (-n).toNat := by
  rw [Int.toString_eq_repr, Int.repr_eq_if]
  split_ifs <;> simp

theorem isDigit_of_mem_toString {n : ℤ} {c : Char} (hc : c ∈ (toString n).toList) :
    c = '-' ∨ c.isDigit = true := by
  have digit {m : ℕ} (hm : c ∈ Nat.toDigits 10 m) : c.isDigit = true :=
    Nat.isDigit_of_mem_toDigits (by decide) (by decide) hm
  rw [toList_toString] at hc
  split_ifs at hc
  · exact .inr (digit hc)
  · obtain rfl | hc := List.mem_cons.mp hc
    · exact .inl rfl
    · exact .inr (digit hc)

theorem isDigit_of_mem_padTwo {n : ℤ} {c : Char} (hc : c ∈ (padTwo n).toList) :
    c = '-' ∨ c.isDigit = true := by
  unfold padTwo at hc
  dsimp only at hc
  split_ifs at hc
  · rw [String.toList_append, List.mem_append] at hc
    obtain hc | hc := hc
    · right
      rw [show "0".toList = ['0'] from rfl, List.mem_singleton] at hc
      rw [hc]
      rfl
    · exact isDigit_of_mem_toString hc
  · exact isDigit_of_mem_toString hc

/-- The number that digits with an optional sign spell. -/
def decimalValue : List Char → ℤ
  | '-' :: digits => -(Nat.ofDigitChars 10 digits 0 : ℤ)
  | digits => Nat.ofDigitChars 10 digits 0

theorem decimalValue_digits {digits : List Char} (hdigits : ∀ c ∈ digits, c.isDigit = true) :
    decimalValue digits = Nat.ofDigitChars 10 digits 0 := by
  unfold decimalValue
  split
  · exact absurd (hdigits '-' List.mem_cons_self) (by decide)
  · rfl

theorem decimalValue_toString (n : ℤ) : decimalValue (toString n).toList = n := by
  rw [toList_toString]
  split_ifs with hn
  · rw [decimalValue_digits fun c => Nat.isDigit_of_mem_toDigits (by decide) (by decide),
      Nat.ofDigitChars_ten_toDigits]
    omega
  · rw [decimalValue, Nat.ofDigitChars_ten_toDigits]
    omega

/-- The zero in front changes nothing. -/
theorem decimalValue_padTwo (n : ℤ) : decimalValue (padTwo n).toList = n := by
  unfold padTwo
  dsimp only
  split_ifs with hshort
  · have hn : 0 ≤ n := by
      by_contra hneg
      rw [← String.length_toList, toList_toString, if_neg hneg] at hshort
      have hdigits := Nat.length_toDigits_pos (b := 10) (n := (-n).toNat)
      rw [List.length_cons] at hshort
      omega
    rw [String.toList_append, toList_toString, if_pos hn, decimalValue_digits]
    · rw [Nat.ofDigitChars_append]
      have : Nat.ofDigitChars 10 "0".toList 0 = 0 := by decide
      rw [this, Nat.ofDigitChars_ten_toDigits]
      omega
    · intro c hc
      obtain hc | hc := List.mem_append.mp hc
      · rw [show "0".toList = ['0'] from rfl, List.mem_singleton] at hc
        rw [hc]
        rfl
      · exact Nat.isDigit_of_mem_toDigits (by decide) (by decide) hc
  · exact decimalValue_toString n

end Decimals

section Names

variable {channelID : ChannelID} {callsign : String} {now : ℤ}

/-- A file name before the callsign. -/
def nameHead (channelID : ChannelID) : List Char := ['C', 'H'] ++ (padTwo channelID).toList ++ ['_']

/-- A file name after the callsign. -/
def nameTail (now : ℤ) : List Char :=
  '_' :: (toString (now / 1000000000)).toList ++ ['.', 'w', 'a', 'v']

theorem toList_recordingName (channelID : ChannelID) (callsign : String) (now : ℤ) :
    (recordingName channelID callsign now).toList =
      nameHead channelID ++ callsign.toList ++ nameTail now := by
  simp [recordingName, nameHead, nameTail]

theorem ne_of_digit {c d : Char} (hc : c = '-' ∨ c.isDigit = true) (hd : d = '/' ∨ d = '_') :
    c ≠ d := by
  rintro rfl
  obtain rfl | rfl := hd <;> obtain h | h := hc <;> revert h <;> decide

theorem slash_notMem_nameHead (channelID : ChannelID) : '/' ∉ nameHead channelID := by
  have hpad : '/' ∉ (padTwo channelID).toList := fun h =>
    ne_of_digit (isDigit_of_mem_padTwo h) (.inl rfl) rfl
  simp [nameHead, hpad]

theorem slash_notMem_nameTail (now : ℤ) : '/' ∉ nameTail now := by
  have htime : '/' ∉ (toString (now / 1000000000)).toList := fun h =>
    ne_of_digit (isDigit_of_mem_toString h) (.inl rfl) rfl
  rw [nameTail, List.cons_append, List.mem_cons, List.mem_append]
  simp only [htime, false_or]
  decide

/-- Whatever stands before the suffix, no cleaning touches it. -/
theorem ordinary_append_nameTail {l : List Char} (hl : '/' ∉ l) : Ordinary (l ++ nameTail now) := by
  refine ⟨?_, ?_, ?_, ?_⟩
  · rw [List.mem_append, not_or]
    exact ⟨hl, slash_notMem_nameTail now⟩
  all_goals
    intro h
    have hlength := congrArg List.length h
    simp only [nameTail, List.length_append, List.length_cons, List.length_nil] at hlength
    omega

theorem ordinary_recordingName {channelID : ChannelID} {callsign : String} (now : ℤ)
    (hsign : '/' ∉ callsign.toList) : Ordinary (recordingName channelID callsign now).toList := by
  rw [toList_recordingName]
  apply ordinary_append_nameTail
  rw [List.mem_append, not_or]
  exact ⟨slash_notMem_nameHead channelID, hsign⟩

theorem eq_of_append_cons_eq {a : Char} {x x' z z' : List Char} (hx : a ∉ x) (hx' : a ∉ x')
    (h : x ++ a :: z = x' ++ a :: z') : x = x' ∧ z = z' := by
  have hsplit := congrArg (List.splitOn a) h
  rw [List.splitOn_append_cons_self_of_not_mem hx,
    List.splitOn_append_cons_self_of_not_mem hx'] at hsplit
  obtain rfl := List.head_eq_of_cons_eq hsplit
  exact ⟨rfl, List.tail_eq_of_cons_eq (List.append_cancel_left h)⟩

/-- The file name says which channel, callsign and second it is of. -/
theorem recordingName_injective {c c' : ChannelID} {s s' : String} {t t' : ℤ}
    (h : recordingName c s t = recordingName c' s' t') :
    c = c' ∧ s = s' ∧ t / 1000000000 = t' / 1000000000 := by
  have noUnderscore {l : List Char} (hl : ∀ c ∈ l, c = '-' ∨ c.isDigit = true) : '_' ∉ l :=
    fun hmem => ne_of_digit (hl '_' hmem) (.inr rfl) rfl
  have hlist := congrArg String.toList h
  rw [toList_recordingName, toList_recordingName] at hlist
  -- the first underscore ends the channel
  have hfront : (padTwo c).toList ++ '_' :: (s.toList ++ nameTail t) =
      (padTwo c').toList ++ '_' :: (s'.toList ++ nameTail t') := by
    simp only [nameHead, List.append_assoc] at hlist
    exact List.append_cancel_left hlist
  obtain ⟨hpad, hrest⟩ := eq_of_append_cons_eq (noUnderscore fun _ => isDigit_of_mem_padTwo)
    (noUnderscore fun _ => isDigit_of_mem_padTwo) hfront
  -- the last one begins the second
  have hback : s.toList ++ '_' :: (toString (t / 1000000000)).toList =
      s'.toList ++ '_' :: (toString (t' / 1000000000)).toList := by
    simp only [nameTail, ← List.append_assoc] at hrest
    exact List.append_cancel_right hrest
  have hreverse := congrArg List.reverse hback
  simp only [List.reverse_append, List.reverse_cons, List.append_assoc,
    List.singleton_append] at hreverse
  have digits (n : ℤ) : '_' ∉ (toString n).toList.reverse := by
    rw [List.mem_reverse]
    exact noUnderscore fun _ => isDigit_of_mem_toString
  obtain ⟨htime, hsign⟩ := eq_of_append_cons_eq (digits _) (digits _) hreverse
  refine ⟨?_, ?_, ?_⟩
  · rw [← decimalValue_padTwo c, hpad, decimalValue_padTwo]
  · exact String.toList_injective (List.reverse_injective hsign)
  · rw [← decimalValue_toString (t / 1000000000), List.reverse_injective htime,
      decimalValue_toString]

end Names

section Paths

namespace AudioRecorder

/-- What `onTransmissionEnd` hands to `os.WriteFile`. -/
def filePath (channelID : ChannelID) (callsign : String) (now : ℤ) (r : AudioRecorder) : String :=
  join [r.storageDir, recordingName channelID callsign now]

/-- What the eviction of a recording hands to `os.Remove`. -/
def oldFilePath (e : VoiceRecording) (r : AudioRecorder) : String :=
  join [r.storageDir, base e.fileURL]

/-- The recordings that one more pushes out. -/
def evicted (rec_ : VoiceRecording) (r : AudioRecorder) : List VoiceRecording :=
  (r.recordings ++ [rec_]).take (r.recordings.length + 1 - r.maxHistory)

/-- The recorder once the transmission `tx` is archived. -/
def archive (channelID : ChannelID) (tx : TransmissionBuffer) (now : ℤ) (r : AudioRecorder) :
    AudioRecorder :=
  let rec_ := recordingOf tx channelID now
  { r with
    activeTX := Function.update r.activeTX channelID none,
    recordings := (r.recordings ++ [rec_]).drop (r.recordings.length + 1 - r.maxHistory),
    disk := removeFiles r.storageDir (r.evicted rec_) { r.disk with
      files := Function.update r.disk.files (r.filePath channelID tx.callsign now)
        (some (encodeWAV 16000 1 16 tx.buffer)) } }

variable {channelID : ChannelID} {now : ℤ} {r r' : AudioRecorder} {tx : TransmissionBuffer}
  {rec_ : VoiceRecording}

theorem onTransmissionEnd_archives (he : r.enabled = true) (htx : r.activeTX channelID = some tx)
    (hlong : minRecordingBytes ≤ tx.buffer.length) (hdisk : r.disk.writable = true) :
    r.onTransmissionEnd channelID now =
      (some (recordingOf tx channelID now), r.archive channelID tx now) := by
  have hshort : ¬ tx.buffer.length < minRecordingBytes := Nat.not_lt.mpr hlong
  simp [onTransmissionEnd, he, htx, hshort, hdisk, archive, evicted, filePath]

/-- Either the transmission is archived, or no file and no recording changes. -/
theorem onTransmissionEnd_cases (channelID : ChannelID) (now : ℤ) (r : AudioRecorder) :
    (∃ tx, r.enabled = true ∧ r.activeTX channelID = some tx ∧
      minRecordingBytes ≤ tx.buffer.length ∧ r.onTransmissionEnd channelID now =
        (some (recordingOf tx channelID now), r.archive channelID tx now)) ∨
    ∃ activeTX, r.onTransmissionEnd channelID now = (none, { r with activeTX := activeTX }) ∧
      ∀ c tx, activeTX c = some tx → r.activeTX c = some tx := by
  by_cases he : r.enabled = true
  swap
  · refine .inr ⟨r.activeTX, ?_, fun c tx h => h⟩
    rw [onTransmissionEnd, if_pos (by simp [he])]
  cases htx : r.activeTX channelID with
  | none => exact .inr ⟨r.activeTX, by simp [onTransmissionEnd, htx], fun c tx h => h⟩
  | some tx =>
    by_cases harchived : minRecordingBytes ≤ tx.buffer.length ∧ r.disk.writable = true
    · exact .inl
        ⟨tx, he, rfl, harchived.1, onTransmissionEnd_archives he htx harchived.1 harchived.2⟩
    · right
      refine ⟨Function.update r.activeTX channelID none, ?_, fun c tx h => ?_⟩
      · by_cases hshort : tx.buffer.length < minRecordingBytes
        · simp [onTransmissionEnd, he, htx, hshort]
        · have hdisk : r.disk.writable = false := by simpa [Nat.not_lt.mp hshort] using harchived
          simp [onTransmissionEnd, he, htx, hshort, hdisk]
      · by_cases hc : c = channelID
        · rw [hc, Function.update_self] at h
          cases h
        · rwa [Function.update_of_ne hc] at h

theorem archives_of_some (h : r.onTransmissionEnd channelID now = (some rec_, r')) :
    ∃ tx, r.activeTX channelID = some tx ∧ rec_ = recordingOf tx channelID now ∧
      r' = r.archive channelID tx now := by
  obtain ⟨tx, -, htx, -, hend⟩ | ⟨_, hend, -⟩ := onTransmissionEnd_cases channelID now r
  · rw [hend] at h
    cases h
    exact ⟨tx, htx, rfl, rfl⟩
  · rw [hend] at h
    cases h

end AudioRecorder

/-- The path of an entry of the directory itself. -/
def DirectlyInside (dir path : String) : Prop :=
  ∃ name : String, Ordinary name.toList ∧ path = join [dir, name]

/-- A callsign without a slash, or one whose elements between the first and the last slash lead
from any directory below `storageDir` back to it. -/
def LeadsBack (storageDir callsign : String) : Prop :=
  '/' ∈ callsign.toList →
    walk (rooted storageDir) (['C', 'H'] :: resolve storageDir) (elements callsign).tail.dropLast =
      resolve storageDir

instance (storageDir callsign : String) : Decidable (LeadsBack storageDir callsign) :=
  inferInstanceAs (Decidable (_ → _))

/-- The elements of a file name: the directories that the callsign names, and the file. -/
theorem elements_recordingName (channelID : ChannelID) (callsign : String) (now : ℤ) :
    ∃ dirs file, elements (recordingName channelID callsign now) = dirs ++ [file] ∧ Ordinary file ∧
      ∀ storageDir, walk (rooted storageDir) (resolve storageDir) dirs = resolve storageDir ↔
        LeadsBack storageDir callsign := by
  have hlist := toList_recordingName channelID callsign now
  by_cases hslash : '/' ∈ callsign.toList
  · obtain ⟨first, others, hsplit⟩ := List.exists_cons_of_ne_nil
      (List.splitOn_ne_nil '/' callsign.toList)
    have hothers : others ≠ [] := by
      rintro rfl
      have hone : ['/'].intercalate (callsign.toList.splitOn '/') = callsign.toList :=
        List.intercalate_splitOn '/'
      rw [hsplit, List.intercalate_singleton] at hone
      have hfirst : first ∈ callsign.toList.splitOn '/' := by simp [hsplit]
      exact notMem_of_mem_splitOn hfirst (hone ▸ hslash)
    obtain rfl | ⟨mid, last, rfl⟩ := List.eq_nil_or_concat' others
    · exact absurd rfl hothers
    have notMem {l : List Char} (hl : l ∈ first :: (mid ++ [last])) : '/' ∉ l := by
      rw [← hsplit] at hl
      exact notMem_of_mem_splitOn hl
    -- the head of the file name makes an ordinary name of the first element
    have hfirst : Ordinary (nameHead channelID ++ first) := by
      refine ⟨?_, ?_, ?_, ?_⟩
      · rw [List.mem_append, not_or]
        exact ⟨slash_notMem_nameHead channelID, notMem List.mem_cons_self⟩
      all_goals simp [nameHead]
    refine ⟨(nameHead channelID ++ first) :: mid, last ++ nameTail now, ?_,
      ordinary_append_nameTail (notMem (by simp)), fun storageDir => ?_⟩
    · rw [elements, hlist]
      have hhead := splitOn_prepend hsplit (slash_notMem_nameHead channelID)
      rw [← List.cons_append] at hhead
      exact splitOn_append hhead (slash_notMem_nameTail now)
    · have hmid : (elements callsign).tail.dropLast = mid := by
        rw [elements, hsplit]
        simp
      have hCH : ['C', 'H'] ≠ ['.', '.'] := by decide
      rw [LeadsBack, hmid, walk_cons, cleanElement_name (by simp [hfirst.2.1, hfirst.2.2.1])
        hfirst.2.2.2, walk_cons_eq_iff hfirst.2.2.2 hCH]
      exact ⟨fun h _ => h, fun h => h hslash⟩
  · have hfile : Ordinary (recordingName channelID callsign now).toList :=
      ordinary_recordingName now hslash
    refine ⟨[], _, ?_, hfile, fun storageDir => ⟨fun _ h => absurd h hslash, fun _ => rfl⟩⟩
    rw [elements, List.splitOn_eq_singleton hfile.1, List.nil_append]

theorem rooted_recordingName (channelID : ChannelID) (callsign : String) (now : ℤ) :
    rooted (recordingName channelID callsign now) = false ∧
      recordingName channelID callsign now ≠ "" := by
  have hlist := toList_recordingName channelID callsign now
  rw [nameHead, List.append_assoc, List.append_assoc, List.append_assoc, List.cons_append] at hlist
  constructor
  · rw [rooted, hlist, List.head?_cons]
    decide
  · intro h
    rw [h] at hlist
    cases hlist

/-- The URL ends in the file's own element, wherever its callsign led. -/
theorem base_fileURL {channelID : ChannelID} {callsign : String} {now : ℤ}
    {dirs : List (List Char)} {file : List Char}
    (h : elements (recordingName channelID callsign now) = dirs ++ [file]) (hfile : Ordinary file) :
    base ("/recordings/" ++ recordingName channelID callsign now) = String.ofList file := by
  apply base_eq _ hfile.2.1
  · exact elements "/recordings" ++ dirs
  · have hlist : ("/recordings/" ++ recordingName channelID callsign now).toList =
        "/recordings".toList ++ '/' :: (recordingName channelID callsign now).toList := by
      rw [String.toList_append]
      rfl
    rw [elements, hlist, List.splitOn_append_cons_self, List.append_assoc, ← h]
    rfl

theorem AudioRecorder.files_removeFiles (storageDir : String) (es : List VoiceRecording)
    (disk : Disk) :
    (removeFiles storageDir es disk).files = es.foldl
      (fun files e => Function.update files (join [storageDir, base e.fileURL]) none)
      disk.files := by
  induction es generalizing disk with
  | nil => rfl
  | cons e es ih => exact ih _

/-- A recording is written into `storageDir` itself, and evicted from where it was written, if
and only if its callsign leads back there. -/
theorem recording_contained {channelID : ChannelID} {now : ℤ} {r r' : AudioRecorder}
    {tx : TransmissionBuffer} {rec_ : VoiceRecording} (htx : r.activeTX channelID = some tx)
    (hend : r.onTransmissionEnd channelID now = (some rec_, r')) :
    r'.disk.files = (r.evicted rec_).foldl
        (fun files e => Function.update files (r.oldFilePath e) none)
        (Function.update r.disk.files (r.filePath channelID tx.callsign now)
          (some (encodeWAV 16000 1 16 tx.buffer))) ∧
      r'.storageDir = r.storageDir ∧
      ((DirectlyInside r.storageDir (r.filePath channelID tx.callsign now) ∧
          r'.oldFilePath rec_ = r.filePath channelID tx.callsign now) ↔
        LeadsBack r.storageDir tx.callsign) := by
  obtain ⟨tx', htx', rfl, rfl⟩ := AudioRecorder.archives_of_some hend
  obtain rfl : tx = tx' := Option.some.inj (htx.symm.trans htx')
  refine ⟨AudioRecorder.files_removeFiles .., rfl, ?_⟩
  obtain ⟨dirs, file, helements, hfile, hback⟩ :=
    elements_recordingName channelID tx.callsign now
  obtain ⟨hrel, hne⟩ := rooted_recordingName channelID tx.callsign now
  -- where the file is written, and where an eviction would look for it
  have hwritten : r.filePath channelID tx.callsign now = render (rooted r.storageDir)
      (file :: walk (rooted r.storageDir) (resolve r.storageDir) dirs) := by
    rw [AudioRecorder.filePath, join_pair r.storageDir hne hrel, helements, walk_concat hfile]
  have hremoved : (r.archive channelID tx now).oldFilePath
      (AudioRecorder.recordingOf tx channelID now) =
        render (rooted r.storageDir) (file :: resolve r.storageDir) := by
    rw [← join_ordinary r.storageDir hfile, ← base_fileURL helements hfile]
    rfl
  rw [← hback r.storageDir]
  constructor
  · rintro ⟨-, hsame⟩
    rw [hremoved, hwritten] at hsame
    have hdirs : ∀ l ∈ dirs, '/' ∉ l := fun l hl =>
      notMem_of_mem_splitOn (show l ∈ elements (recordingName channelID tx.callsign now) by
        rw [helements]
        exact List.mem_append_left _ hl)
    have hdir := separated_resolve r.storageDir
    have hstack := render_injective (hdir.cons hfile.1 hfile.2.1)
      ((separated_walk hdir hdirs).cons hfile.1 hfile.2.1) (by simp) (by simp) hsame
    exact (List.tail_eq_of_cons_eq hstack).symm
  · intro hwalk
    rw [hwritten, hwalk, hremoved]
    refine ⟨⟨String.ofList file, ?_, ?_⟩, rfl⟩
    · rw [String.toList_ofList]
      exact hfile
    · rw [join_ordinary r.storageDir hfile]

/-- A tenth of a second of silence under `callsign`, about to end. -/
def silenceOf (callsign : String) : TransmissionBuffer where
  channelID := 1
  speakerID := "u1"
  callsign := callsign
  role := "Operator"
  startTime := 0
  buffer := List.replicate minRecordingBytes 0

def recorderOf (callsign : String) : AudioRecorder :=
  { newAudioRecorder "./data/recordings" 50 true {} with
    activeTX := fun _ => some (silenceOf callsign) }

theorem recorderOf_ends (callsign : String) :
    (recorderOf callsign).onTransmissionEnd 1 0 =
      (some (AudioRecorder.recordingOf (silenceOf callsign) 1 0),
        (recorderOf callsign).archive 1 (silenceOf callsign) 0) := by
  apply AudioRecorder.onTransmissionEnd_archives rfl rfl _ rfl
  rw [silenceOf, List.length_replicate]

theorem recording_contained_alpha :
    LeadsBack "./data/recordings" "ALPHA/../99" ∧
      DirectlyInside (recorderOf "ALPHA/../99").storageDir
        ((recorderOf "ALPHA/../99").filePath 1 (silenceOf "ALPHA/../99").callsign 0) := by
  have hback : LeadsBack "./data/recordings" "ALPHA/../99" := by decide
  have htx : (recorderOf "ALPHA/../99").activeTX 1 = some (silenceOf "ALPHA/../99") := rfl
  obtain ⟨-, -, hiff⟩ := recording_contained htx (recorderOf_ends "ALPHA/../99")
  exact ⟨hback, (hiff.mpr hback).1⟩

/-- A callsign with enough dots in it is written outside, and eviction looks elsewhere. -/
theorem recording_escapes :
    (recorderOf "x/../../uploads/y").filePath 1 "x/../../uploads/y" 0 = "data/uploads/y_0.wav" ∧
    ¬ ∀ (channelID : ChannelID) (now : ℤ) (r r' : AudioRecorder) (tx : TransmissionBuffer)
        (rec_ : VoiceRecording),
      r.activeTX channelID = some tx → tx.callsign ≠ "" →
        r.onTransmissionEnd channelID now = (some rec_, r') →
          DirectlyInside r.storageDir (r.filePath channelID tx.callsign now) ∧
            r'.oldFilePath rec_ = r.filePath channelID tx.callsign now := by
  have hwritten : (recorderOf "x/../../uploads/y").filePath 1 "x/../../uploads/y" 0 =
      "data/uploads/y_0.wav" := by decide
  refine ⟨hwritten, fun h => ?_⟩
  have htx : (recorderOf "x/../../uploads/y").activeTX 1 =
      some (silenceOf "x/../../uploads/y") := rfl
  have hname : (silenceOf "x/../../uploads/y").callsign ≠ "" := by decide
  obtain ⟨-, hsame⟩ := h 1 0 _ _ _ _ htx hname (recorderOf_ends "x/../../uploads/y")
  have hremoved : join ["./data/recordings",
      base ("/recordings/" ++ recordingName 1 "x/../../uploads/y" 0)] =
        "data/recordings/y_0.wav" := by
    decide
  have habsurd : "data/recordings/y_0.wav" = "data/uploads/y_0.wav" := by
    rw [← hremoved, ← hwritten]
    exact hsame
  revert habsurd
  decide

end Paths

end TwoWayRadio

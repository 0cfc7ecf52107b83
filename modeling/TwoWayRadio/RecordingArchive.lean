import TwoWayRadio.HubRecorder
import TwoWayRadio.RecordingPaths
import TwoWayRadio.Runs
import TwoWayRadio.SlidingWindow

/-! The list of recordings and the files on disk, over whole histories of transmissions. -/
namespace TwoWayRadio

open Filepath Transition

/-- Calls of the recorder's methods, and the passing of time. -/
inductive RecorderEvent
  | onTransmissionStart (channelID : ChannelID) (speaker : Client)
  | appendAudio (channelID : ChannelID) (payload : Bytes)
  | onTransmissionEnd (channelID : ChannelID)
  | tick (d : ℕ)
deriving DecidableEq

/-- The recorder, the clock and every recording saved so far with its WAV, oldest first. -/
structure Archive where
  recorder : AudioRecorder
  now : ℤ
  saved : List (VoiceRecording × Bytes) := []

namespace Archive

/-- A server process begins: the directory may hold files, and writing to it succeeds. -/
def start (storageDir : String) (maxHistory : ℕ) (enabled : Bool) (files : String → Option Bytes)
    (now : ℤ) : Archive where
  recorder := newAudioRecorder storageDir maxHistory enabled { files := files }
  now := now

/-- `OnTransmissionEnd`, with what it saved. -/
def finish (channelID : ChannelID) (s : Archive) : Archive :=
  let (saved, r) := s.recorder.onTransmissionEnd channelID s.now
  let wav := (s.recorder.activeTX channelID).elim [] fun tx => encodeWAV 16000 1 16 tx.buffer
  { s with recorder := r, saved := s.saved ++ saved.toList.map fun rec_ => (rec_, wav) }

/-- Only speakers whose callsigns have no path separator are considered. -/
def step (s : Archive) : RecorderEvent → Option Archive
  | .onTransmissionStart channelID speaker =>
    if '/' ∈ speaker.callsign.toList then none
    else some { s with recorder := s.recorder.onTransmissionStart channelID speaker s.now }
  | .appendAudio channelID payload =>
    some { s with recorder := s.recorder.appendAudio channelID payload }
  | .onTransmissionEnd channelID => some (s.finish channelID)
  | .tick d => some { s with now := s.now + d }

/-- The file that a recording's URL names. -/
def file (e : VoiceRecording) (s : Archive) : Option Bytes :=
  s.recorder.disk.files (join [s.recorder.storageDir, base e.fileURL])

/-- What the listing promises of the disk. -/
structure Consistent (s : Archive) : Prop where
  bounded : (s.recorder.getRecordings 0).length ≤ s.recorder.maxHistory
  latest : s.recorder.getRecordings 0 = (s.saved.map Prod.fst).rtake s.recorder.maxHistory
  stored : ∀ p ∈ s.saved.rtake s.recorder.maxHistory,
    DirectlyInside s.recorder.storageDir (join [s.recorder.storageDir, base p.1.fileURL]) ∧
      s.file p.1 = some p.2 ∧ p.2.length = p.1.sizeBytes
  removed : ∀ p ∈ s.saved,
    (∀ e ∈ s.recorder.getRecordings 0, e.fileURL ≠ p.1.fileURL) → s.file p.1 = none

/-- No transmission is archived while a recording of the same channel, callsign and second is
listed. -/
def NameFree (s : Archive) : RecorderEvent → Prop
  | .onTransmissionEnd channelID =>
    ∀ tx, s.recorder.activeTX channelID = some tx → minRecordingBytes ≤ tx.buffer.length →
      ∀ e ∈ s.recorder.getRecordings 0, ¬ (e.channelID = channelID ∧ e.callsign = tx.callsign ∧
        e.timestamp / 1000 = s.now / 1000000000)
  | _ => True

/-- The fields of a recording say what its file is called. -/
def WellNamed (e : VoiceRecording) : Prop :=
  '/' ∉ e.callsign.toList ∧
    e.fileURL = "/recordings/" ++ recordingName e.channelID e.callsign (e.timestamp * 1000000)

theorem wellNamed_recordingOf {tx : TransmissionBuffer} (hsign : '/' ∉ tx.callsign.toList)
    (channelID : ChannelID) (now : ℤ) : WellNamed (AudioRecorder.recordingOf tx channelID now) := by
  refine ⟨hsign, ?_⟩
  have hseconds : now / 1000000 * 1000000 / 1000000000 = now / 1000000000 := by omega
  simp only [AudioRecorder.recordingOf, recordingName, hseconds]

variable {storageDir : String} {e f : VoiceRecording}

/-- The file of a well-named recording. -/
theorem WellNamed.base (he : WellNamed e) : ∃ name, Filepath.Ordinary name ∧
    Filepath.base e.fileURL = String.ofList name ∧
      e.fileURL = "/recordings/" ++ String.ofList name := by
  obtain ⟨hslash, hurl⟩ := he
  have hname : Filepath.Ordinary
      (recordingName e.channelID e.callsign (e.timestamp * 1000000)).toList :=
    ordinary_recordingName _ hslash
  have helements := elements_ordinary hname
  rw [String.ofList_toList] at helements
  refine ⟨_, hname, ?_, ?_⟩
  · rw [hurl]
    exact base_fileURL helements hname
  · rw [hurl, String.ofList_toList]

/-- Recordings with different URLs have different files. -/
theorem WellNamed.fileURL_eq (he : WellNamed e) (hf : WellNamed f)
    (h : join [storageDir, Filepath.base e.fileURL] = join [storageDir, Filepath.base f.fileURL]) :
    e.fileURL = f.fileURL := by
  obtain ⟨a, ha, hbase, hurl⟩ := he.base
  obtain ⟨b, hb, hbase', hurl'⟩ := hf.base
  rw [hbase, hbase'] at h
  rw [hurl, hurl', join_ordinary_injective ha hb h]

theorem WellNamed.directlyInside (he : WellNamed e) :
    DirectlyInside storageDir (join [storageDir, Filepath.base e.fileURL]) := by
  obtain ⟨name, hname, hbase, -⟩ := he.base
  refine ⟨String.ofList name, ?_, by rw [hbase]⟩
  rw [String.toList_ofList]
  exact hname

/-- What every step keeps. -/
structure Kept (s : Archive) : Prop where
  writable : s.recorder.disk.writable = true
  signs : ∀ c tx, s.recorder.activeTX c = some tx → '/' ∉ tx.callsign.toList
  named : ∀ p ∈ s.saved, WellNamed p.1
  listed : s.recorder.recordings = (s.saved.map Prod.fst).rtake s.recorder.maxHistory
  distinct : (s.recorder.recordings.map VoiceRecording.fileURL).Nodup
  stored : ∀ p ∈ s.saved.rtake s.recorder.maxHistory,
    s.file p.1 = some p.2 ∧ p.2.length = p.1.sizeBytes
  removed : ∀ p ∈ s.saved, p.1.fileURL ∉ s.recorder.recordings.map VoiceRecording.fileURL →
    s.file p.1 = none

/-- The callsigns under which transmissions run, when one of these begins, grows or ends. -/
theorem Kept.signs_update {s : Archive} (hs : s.Kept) (channelID : ChannelID)
    {new : Option TransmissionBuffer} (hnew : ∀ tx, new = some tx → '/' ∉ tx.callsign.toList) :
    ∀ c tx, Function.update s.recorder.activeTX channelID new c = some tx →
      '/' ∉ tx.callsign.toList :=
  (Function.forall_update_iff s.recorder.activeTX
    fun _ o => ∀ tx, o = some tx → '/' ∉ tx.callsign.toList).mpr ⟨hnew, fun c _ => hs.signs c⟩

theorem getRecordings_zero (r : AudioRecorder) : r.getRecordings 0 = r.recordings := if_pos le_rfl

theorem Kept.consistent {s : Archive} (hs : s.Kept) : s.Consistent where
  bounded := by
    rw [getRecordings_zero, hs.listed]
    exact SlidingWindow.length_rtake_le ..
  latest := by rw [getRecordings_zero, hs.listed]
  stored := fun p hp =>
    ⟨(hs.named p (List.mem_of_mem_drop hp)).directlyInside, hs.stored p hp⟩
  removed := by
    intro p hp hne
    apply hs.removed p hp
    intro hmem
    obtain ⟨e, he, heq⟩ := List.mem_map.mp hmem
    rw [getRecordings_zero] at hne
    exact hne e he heq

section Removal

variable {α β γ : Type} [DecidableEq β] {g : α → β} {es : List α} {x : β}

theorem foldl_update_of_ne (files : β → Option γ) (hes : ∀ e ∈ es, g e ≠ x) :
    es.foldl (fun files e => Function.update files (g e) none) files x = files x := by
  induction es generalizing files with
  | nil => rfl
  | cons e es ih =>
    rw [List.foldl_cons, ih _ fun e' he' => hes e' (List.mem_cons_of_mem _ he'),
      Function.update_of_ne (Ne.symm (hes e List.mem_cons_self))]

theorem foldl_update_of_none (files : β → Option γ) (hfiles : files x = none) :
    es.foldl (fun files e => Function.update files (g e) none) files x = none := by
  induction es generalizing files with
  | nil => exact hfiles
  | cons e es ih =>
    rw [List.foldl_cons]
    apply ih
    by_cases he : x = g e
    · rw [he, Function.update_self]
    · rw [Function.update_of_ne he, hfiles]

theorem foldl_update_of_mem (files : β → Option γ) {e : α} (he : e ∈ es) (hx : g e = x) :
    es.foldl (fun files e => Function.update files (g e) none) files x = none := by
  obtain ⟨before, after, rfl⟩ := List.append_of_mem he
  rw [List.foldl_append, List.foldl_cons]
  apply foldl_update_of_none
  rw [← hx, Function.update_self]

end Removal

section Archiving

variable {s : Archive} {channelID : ChannelID} {tx : TransmissionBuffer}

/-- The archive with one more transmission in it. -/
def save (channelID : ChannelID) (tx : TransmissionBuffer) (s : Archive) : Archive :=
  { s with
    recorder := s.recorder.archive channelID tx s.now,
    saved := s.saved ++
      [(AudioRecorder.recordingOf tx channelID s.now, encodeWAV 16000 1 16 tx.buffer)] }

/-- `finish` when the transmission is archived. -/
theorem finish_archives (he : s.recorder.enabled = true)
    (htx : s.recorder.activeTX channelID = some tx)
    (hlong : minRecordingBytes ≤ tx.buffer.length) (hdisk : s.recorder.disk.writable = true) :
    s.finish channelID = s.save channelID tx := by
  rw [finish, AudioRecorder.onTransmissionEnd_archives he htx hlong hdisk, htx]
  rfl

/-- `finish` when it is not. -/
theorem finish_quiet {activeTX : ChannelID → Option TransmissionBuffer}
    (hend : s.recorder.onTransmissionEnd channelID s.now =
      (none, { s.recorder with activeTX := activeTX })) :
    s.finish channelID = { s with recorder := { s.recorder with activeTX := activeTX } } := by
  rw [finish, hend]
  simp

theorem filePath_eq (hsign : '/' ∉ tx.callsign.toList) :
    s.recorder.filePath channelID tx.callsign s.now = join [s.recorder.storageDir,
      Filepath.base (AudioRecorder.recordingOf tx channelID s.now).fileURL] := by
  have hname : Filepath.Ordinary (recordingName channelID tx.callsign s.now).toList :=
    ordinary_recordingName _ hsign
  have helements := elements_ordinary hname
  rw [String.ofList_toList] at helements
  rw [AudioRecorder.filePath, AudioRecorder.recordingOf, base_fileURL helements hname,
    String.ofList_toList]

/-- Under the name condition the new recording has a URL of its own. -/
theorem Kept.fileURL_fresh (hs : s.Kept) (htx : s.recorder.activeTX channelID = some tx)
    (hlong : minRecordingBytes ≤ tx.buffer.length)
    (hfree : s.NameFree (.onTransmissionEnd channelID)) :
    (AudioRecorder.recordingOf tx channelID s.now).fileURL ∉
      s.recorder.recordings.map VoiceRecording.fileURL := by
  intro hmem
  obtain ⟨e, he, heq⟩ := List.mem_map.mp hmem
  have hsaved : e ∈ s.saved.map Prod.fst := by
    rw [hs.listed] at he
    exact List.mem_of_mem_drop he
  obtain ⟨p, hp, rfl⟩ := List.mem_map.mp hsaved
  rw [(hs.named p hp).2] at heq
  have hlist := congrArg String.toList heq
  simp only [AudioRecorder.recordingOf, String.toList_append] at hlist
  obtain ⟨hc, hsign, htime⟩ :=
    recordingName_injective (String.toList_injective (List.append_cancel_left hlist))
  rw [← getRecordings_zero] at he
  refine hfree tx htx hlong p.1 he ⟨hc, hsign, ?_⟩
  omega

theorem file_save_of_mem {e f : VoiceRecording}
    (he : e ∈ s.recorder.evicted (AudioRecorder.recordingOf tx channelID s.now))
    (hurl : e.fileURL = f.fileURL) : (s.save channelID tx).file f = none := by
  rw [file, save, AudioRecorder.archive]
  dsimp only
  rw [AudioRecorder.files_removeFiles]
  apply foldl_update_of_mem _ he
  rw [hurl]

/-- A file that is not evicted is the old one, but for the new recording's. -/
theorem file_save_of_ne {f : VoiceRecording} (hsign : '/' ∉ tx.callsign.toList) (hf : WellNamed f)
    (hes : ∀ e ∈ s.recorder.evicted (AudioRecorder.recordingOf tx channelID s.now),
      WellNamed e ∧ e.fileURL ≠ f.fileURL) :
    (s.save channelID tx).file f =
      if f.fileURL = (AudioRecorder.recordingOf tx channelID s.now).fileURL then
        some (encodeWAV 16000 1 16 tx.buffer)
      else s.file f := by
  have hnew := wellNamed_recordingOf hsign channelID s.now
  rw [file, save, AudioRecorder.archive]
  dsimp only
  rw [AudioRecorder.files_removeFiles, foldl_update_of_ne, filePath_eq hsign]
  · dsimp only
    split_ifs with hurl
    · rw [hurl, Function.update_self]
    · rw [Function.update_of_ne fun hpath => hurl (hf.fileURL_eq hnew hpath), file]
  · intro e he hpath
    obtain ⟨hnamed, hne⟩ := hes e he
    exact hne (hnamed.fileURL_eq hf hpath)

theorem Kept.wellNamed_of_mem (hs : s.Kept) (hsign : '/' ∉ tx.callsign.toList) :
    ∀ e ∈ s.recorder.recordings ++ [AudioRecorder.recordingOf tx channelID s.now],
      WellNamed e := by
  intro e he
  obtain he | he := List.mem_append.mp he
  · rw [hs.listed] at he
    obtain ⟨p, hp, rfl⟩ := List.mem_map.mp (List.mem_of_mem_drop he)
    exact hs.named p hp
  · rw [List.mem_singleton.mp he]
    exact wellNamed_recordingOf hsign channelID s.now

/-- What is evicted and what stays listed make up the old list and the new recording. -/
theorem evicted_append_recordings :
    s.recorder.evicted (AudioRecorder.recordingOf tx channelID s.now) ++
        (s.save channelID tx).recorder.recordings =
      s.recorder.recordings ++ [AudioRecorder.recordingOf tx channelID s.now] :=
  List.take_append_drop ..

theorem mem_of_evicted {e : VoiceRecording}
    (he : e ∈ s.recorder.evicted (AudioRecorder.recordingOf tx channelID s.now)) :
    e ∈ s.recorder.recordings ++ [AudioRecorder.recordingOf tx channelID s.now] :=
  List.mem_of_mem_take he

/-- All of them have URLs of their own. -/
theorem Kept.distinct_save (hs : s.Kept)
    (hfresh : (AudioRecorder.recordingOf tx channelID s.now).fileURL ∉
      s.recorder.recordings.map VoiceRecording.fileURL) :
    ((s.recorder.evicted (AudioRecorder.recordingOf tx channelID s.now) ++
      (s.save channelID tx).recorder.recordings).map VoiceRecording.fileURL).Nodup := by
  rw [evicted_append_recordings, List.map_append, List.map_singleton, ← List.concat_eq_append]
  exact hs.distinct.concat hfresh

theorem Kept.listed_save (hs : s.Kept) : (s.save channelID tx).recorder.recordings =
    ((s.save channelID tx).saved.map Prod.fst).rtake s.recorder.maxHistory := by
  have hrecordings : (s.save channelID tx).recorder.recordings =
      (s.recorder.recordings ++ [AudioRecorder.recordingOf tx channelID s.now]).rtake
        s.recorder.maxHistory := by
    rw [List.rtake, List.length_append]
    rfl
  rw [hrecordings, hs.listed, SlidingWindow.rtake_rtake_append, Archive.save, List.map_append,
    List.map_singleton]

/-- What is listed has its file: what was listed before keeps the one that it had. -/
theorem Kept.stored_save (hs : s.Kept) (hsign : '/' ∉ tx.callsign.toList)
    (hfresh : (AudioRecorder.recordingOf tx channelID s.now).fileURL ∉
      s.recorder.recordings.map VoiceRecording.fileURL) :
    ∀ p ∈ (s.save channelID tx).saved.rtake s.recorder.maxHistory,
      (s.save channelID tx).file p.1 = some p.2 ∧ p.2.length = p.1.sizeBytes := by
  intro p hp
  have hlist : p.1 ∈ (s.save channelID tx).recorder.recordings := by
    rw [hs.listed_save, ← SlidingWindow.map_rtake]
    exact List.mem_map_of_mem hp
  have hapart : ∀ e ∈ s.recorder.evicted (AudioRecorder.recordingOf tx channelID s.now),
      e.fileURL ≠ p.1.fileURL := by
    have hdistinct := hs.distinct_save hfresh
    rw [List.map_append] at hdistinct
    intro e he hurl
    exact List.disjoint_of_nodup_append hdistinct (List.mem_map_of_mem he)
      (hurl ▸ List.mem_map_of_mem hlist)
  have hkept := file_save_of_ne (f := p.1) hsign
    (hs.wellNamed_of_mem hsign p.1
      (evicted_append_recordings ▸ List.mem_append_right _ hlist))
    fun e he => ⟨hs.wellNamed_of_mem hsign e (mem_of_evicted he), hapart e he⟩
  obtain hp | rfl := SlidingWindow.mem_rtake_concat _ hp
  · have hold : p.1 ∈ s.recorder.recordings := by
      rw [hs.listed, ← SlidingWindow.map_rtake]
      exact List.mem_map_of_mem hp
    have hne : p.1.fileURL ≠ (AudioRecorder.recordingOf tx channelID s.now).fileURL := by
      intro hurl
      apply hfresh
      rw [← hurl]
      exact List.mem_map_of_mem hold
    rw [hkept, if_neg hne]
    exact hs.stored p hp
  · exact ⟨hkept.trans (if_pos rfl), rfl⟩

/-- What is not listed has no file: either it goes just now, or it has gone before and is not
written again. -/
theorem Kept.removed_save (hs : s.Kept) (hsign : '/' ∉ tx.callsign.toList) :
    ∀ p ∈ (s.save channelID tx).saved,
      p.1.fileURL ∉ (s.save channelID tx).recorder.recordings.map VoiceRecording.fileURL →
        (s.save channelID tx).file p.1 = none := by
  intro p hp hunlisted
  by_cases hout : ∃ e ∈ s.recorder.evicted (AudioRecorder.recordingOf tx channelID s.now),
      e.fileURL = p.1.fileURL
  · obtain ⟨e, he, hurl⟩ := hout
    exact file_save_of_mem he hurl
  · have hnone : ∀ e ∈ s.recorder.recordings ++ [AudioRecorder.recordingOf tx channelID s.now],
        e.fileURL ≠ p.1.fileURL := by
      intro e he hurl
      rw [← evicted_append_recordings] at he
      obtain he | he := List.mem_append.mp he
      · exact hout ⟨e, he, hurl⟩
      · exact hunlisted (hurl ▸ List.mem_map_of_mem he)
    have hne : p.1.fileURL ≠ (AudioRecorder.recordingOf tx channelID s.now).fileURL :=
      fun hurl => hnone _ (by simp) hurl.symm
    obtain hp | hp := List.mem_append.mp hp
    · rw [file_save_of_ne hsign (hs.named p hp) fun e he =>
        ⟨hs.wellNamed_of_mem hsign e (mem_of_evicted he), hnone e (mem_of_evicted he)⟩,
        if_neg hne]
      apply hs.removed p hp
      intro hmem
      obtain ⟨e, he, hurl⟩ := List.mem_map.mp hmem
      exact hnone e (List.mem_append_left _ he) hurl
    · rw [List.mem_singleton.mp hp] at hne
      exact absurd rfl hne

/-- Saving a transmission under a free name. -/
theorem Kept.save (hs : s.Kept) (htx : s.recorder.activeTX channelID = some tx)
    (hlong : minRecordingBytes ≤ tx.buffer.length)
    (hfree : s.NameFree (.onTransmissionEnd channelID)) : (s.save channelID tx).Kept := by
  have hfresh := hs.fileURL_fresh htx hlong hfree
  have hsign := hs.signs channelID tx htx
  constructor
  case writable => exact (AudioRecorder.removeFiles_writable ..).trans hs.writable
  case signs =>
    have hactive : (s.save channelID tx).recorder.activeTX =
        Function.update s.recorder.activeTX channelID none := rfl
    rw [hactive]
    exact hs.signs_update channelID fun tx' htx' => by cases htx'
  case named =>
    intro p hp
    obtain hp | hp := List.mem_append.mp hp
    · exact hs.named p hp
    · rw [List.mem_singleton.mp hp]
      exact wellNamed_recordingOf hsign channelID s.now
  case listed => exact hs.listed_save
  case distinct =>
    have hdistinct := hs.distinct_save hfresh
    rw [List.map_append] at hdistinct
    exact hdistinct.of_append_right
  case stored => exact hs.stored_save hsign hfresh
  case removed => exact hs.removed_save hsign

end Archiving

/-- One step of the recorder. -/
theorem Kept.step {s t : Archive} {e : RecorderEvent} (hs : s.Kept) (hfree : s.NameFree e)
    (h : s.step e = some t) : t.Kept := by
  cases e with
  | onTransmissionStart channelID speaker =>
    simp only [Archive.step] at h
    split_ifs at h with hsign
    obtain rfl := Option.some.inj h
    unfold AudioRecorder.onTransmissionStart
    split_ifs
    · exact hs
    · refine { hs with signs := hs.signs_update channelID fun tx htx => ?_ }
      cases htx
      exact hsign
  | appendAudio channelID payload =>
    obtain rfl := Option.some.inj h
    unfold AudioRecorder.appendAudio
    split_ifs
    · exact hs
    cases htx : s.recorder.activeTX channelID with
    | none => exact hs
    | some tx =>
      dsimp only
      split_ifs
      · exact hs
      · refine { hs with signs := hs.signs_update channelID fun tx' htx' => ?_ }
        cases htx'
        exact hs.signs channelID tx htx
  | onTransmissionEnd channelID =>
    obtain rfl := Option.some.inj h
    -- either a recording is saved or the archive stays as it is
    obtain ⟨tx, he, htx, hlong, hend⟩ | ⟨activeTX, hend, hactive⟩ :=
      s.recorder.onTransmissionEnd_cases channelID s.now
    · rw [finish_archives he htx hlong hs.writable]
      exact hs.save htx hlong hfree
    · rw [finish_quiet hend]
      exact { hs with signs := fun c tx htx => hs.signs c tx (hactive c tx htx) }
  | tick d =>
    obtain rfl := Option.some.inj h
    exact { hs with }

theorem start_kept (storageDir : String) (maxHistory : ℕ) (enabled : Bool)
    (files : String → Option Bytes) (now : ℤ) :
    (start storageDir maxHistory enabled files now).Kept where
  writable := rfl
  signs := fun c tx htx => by cases htx
  named := fun p hp => by cases hp
  listed := by simp [start, newAudioRecorder]
  distinct := List.nodup_nil
  stored := fun p hp => by simp [start] at hp
  removed := fun p hp => by cases hp

end Archive

open Archive

/-- As long as every transmission is archived under a free name, the list and the disk agree. -/
theorem archive_consistent (storageDir : String) (maxHistory : ℕ) (enabled : Bool)
    (files : String → Option Bytes) (now : ℤ) (es : List RecorderEvent)
    (hfree : Guarded Archive.step NameFree (start storageDir maxHistory enabled files now) es) :
    Always Archive.step Consistent (start storageDir maxHistory enabled files now) es := by
  rw [always_iff]
  rintro pre post t rfl hrun
  exact (hrun.invariant_of_guarded (fun s e t hs hfree h => hs.step hfree h) hfree.prefix
    (start_kept ..)).consistent

section Alpha

def alpha : Client := newClient "u1" "ALPHA-99"

/-- ALPHA-99 talks for `n` bytes. -/
def talk (n : ℕ) : List RecorderEvent :=
  [.onTransmissionStart 1 alpha, .appendAudio 1 (List.replicate n 0), .onTransmissionEnd 1]

def talkBuffer (n : ℕ) (now : ℤ) : TransmissionBuffer where
  channelID := 1
  speakerID := "u1"
  callsign := "ALPHA-99"
  role := "Operator"
  startTime := now
  buffer := List.replicate n 0

def talked (n : ℕ) (s : Archive) : Archive :=
  save 1 (talkBuffer n s.now) { s with recorder := { s.recorder with
    activeTX := Function.update s.recorder.activeTX 1 (some (talkBuffer n s.now)) } }

variable {s : Archive} {n : ℕ}

theorem run_talk (he : s.recorder.enabled = true) (hdisk : s.recorder.disk.writable = true)
    (hlong : minRecordingBytes ≤ n) (hfits : n ≤ maxBufferBytes) :
    Run Archive.step s (talk n) (talked n s) := by
  have hlength : (List.replicate n (0 : UInt8)).length = n := List.length_replicate
  have hstart : Archive.step s (.onTransmissionStart 1 alpha) = some { s with
      recorder := s.recorder.onTransmissionStart 1 alpha s.now } := by
    rw [Archive.step, if_neg (by decide)]
  refine Run.cons hstart (Run.cons rfl (Run.cons (congrArg some ?_) (Run.nil _)))
  have hrecorder :
      (s.recorder.onTransmissionStart 1 alpha s.now).appendAudio 1 (List.replicate n 0) =
      { s.recorder with
        activeTX := Function.update s.recorder.activeTX 1 (some (talkBuffer n s.now)) } := by
    simp only [AudioRecorder.onTransmissionStart, AudioRecorder.appendAudio, he, Bool.not_true,
      Bool.false_eq_true, if_false, Function.update_self, List.length_nil, hlength, zero_add,
      Nat.not_lt.mpr hfits, List.nil_append, Function.update_idem]
    rfl
  rw [hrecorder]
  have htx : Function.update s.recorder.activeTX 1 (some (talkBuffer n s.now)) 1 =
      some (talkBuffer n s.now) := Function.update_self ..
  have hbuffer : minRecordingBytes ≤ (talkBuffer n s.now).buffer.length := by
    rw [talkBuffer, hlength]
    exact hlong
  exact finish_archives he htx hbuffer hdisk

theorem recordings_onTransmissionStart (r : AudioRecorder) (c : ChannelID) (speaker : Client)
    (now : ℤ) : (r.onTransmissionStart c speaker now).recordings = r.recordings := by
  unfold AudioRecorder.onTransmissionStart
  split_ifs <;> rfl

theorem recordings_appendAudio (r : AudioRecorder) (c : ChannelID) (payload : Bytes) :
    (r.appendAudio c payload).recordings = r.recordings := by
  unfold AudioRecorder.appendAudio
  split_ifs
  · rfl
  · split
    · rfl
    · split_ifs <;> rfl

theorem guarded_talk (hfree : ∀ e ∈ s.recorder.recordings,
    e.timestamp / 1000 ≠ s.now / 1000000000) (n : ℕ) :
    Guarded Archive.step NameFree s (talk n) := by
  refine fun t ht => ⟨trivial, fun u hu => ⟨trivial, fun v _ => ⟨?_, trivial⟩⟩⟩
  rw [Archive.step, if_neg (by decide)] at ht
  obtain rfl := Option.some.inj ht
  obtain rfl := Option.some.inj hu
  rintro tx - - e he ⟨-, -, htime⟩
  rw [getRecordings_zero] at he
  rw [recordings_appendAudio, recordings_onTransmissionStart] at he
  exact hfree e he htime

theorem talked_recordings (n : ℕ) (s : Archive)
    (hroom : s.recorder.recordings.length < s.recorder.maxHistory) :
    (talked n s).recorder.recordings =
      s.recorder.recordings ++ [AudioRecorder.recordingOf (talkBuffer n s.now) 1 s.now] := by
  have hdrop : s.recorder.recordings.length + 1 - s.recorder.maxHistory = 0 := by omega
  show (s.recorder.recordings ++ [_]).drop (s.recorder.recordings.length + 1 - _) = _
  rw [hdrop]
  rfl

def emptyArchive : Archive := start "./data/recordings" 50 true (fun _ => none) 0

/-- Two transmissions a second apart. -/
theorem archive_consistent_apart :
    Always Archive.step Consistent emptyArchive
      (talk minRecordingBytes ++ .tick 1000000000 :: talk minRecordingBytes) := by
  apply archive_consistent
  have hfirst : Guarded Archive.step NameFree emptyArchive (talk minRecordingBytes) :=
    guarded_talk (fun e he => by cases he) _
  refine hfirst.append (run_talk rfl rfl le_rfl (by decide)) fun t ht => ⟨trivial, ?_⟩
  obtain rfl := Option.some.inj ht
  apply guarded_talk
  intro e he
  have hlisted : (talked minRecordingBytes emptyArchive).recorder.recordings =
      [] ++ [AudioRecorder.recordingOf (talkBuffer minRecordingBytes 0) 1 0] :=
    talked_recordings _ emptyArchive (by decide)
  rw [hlisted, List.nil_append, List.mem_singleton] at he
  rw [he]
  decide

/-- The second of two transmissions in one second takes the file of the first. -/
theorem talked_twice {m n : ℕ} (hne : m ≠ n) :
    ¬ Consistent (talked n (talked m emptyArchive)) := by
  intro hc
  have hnamed : WellNamed (AudioRecorder.recordingOf (talkBuffer m 0) 1 0) :=
    wellNamed_recordingOf (by decide : '/' ∉ "ALPHA-99".toList) 1 0
  have htaken : (talked n (talked m emptyArchive)).file
      (AudioRecorder.recordingOf (talkBuffer m 0) 1 0) =
        some (encodeWAV 16000 1 16 (talkBuffer n 0).buffer) := by
    refine (file_save_of_ne (by decide : '/' ∉ "ALPHA-99".toList) hnamed fun e he => ?_).trans
      (if_pos rfl)
    cases he
  obtain ⟨-, hkept, -⟩ := hc.stored (AudioRecorder.recordingOf (talkBuffer m 0) 1 0,
    encodeWAV 16000 1 16 (talkBuffer m 0).buffer) List.mem_cons_self
  rw [htaken] at hkept
  have hlength := congrArg List.length (Option.some.inj hkept)
  rw [length_encodeWAV, length_encodeWAV, talkBuffer, talkBuffer, List.length_replicate,
    List.length_replicate] at hlength
  omega

theorem archive_consistent_fails :
    ∃ t, Run Archive.step emptyArchive (talk minRecordingBytes ++ talk (minRecordingBytes + 2)) t ∧
      ¬ Consistent t :=
  ⟨_, (run_talk rfl rfl le_rfl (by decide)).append
      (run_talk rfl rfl (Nat.le_add_right ..) (by decide)),
    talked_twice (by decide)⟩

end Alpha

end TwoWayRadio

import TwoWayRadio.RecordingPaths
import TwoWayRadio.Runs
import Mathlib.Data.Fintype.Basic
import Mathlib.Data.List.OfFn

/-! File uploads beside the recorder: what `/api/upload` writes, and what `/uploads/` serves. -/
namespace TwoWayRadio

open Filepath Transition

/-- A `multipart.FileHeader` with the content behind it. -/
structure UploadedFile where
  filename : String
  contentType : String
  content : Bytes
deriving DecidableEq

inductive Method
  | options | post | other
deriving DecidableEq

/-- What `ParseMultipartForm` and then `FormFile` make of a body. `maxBytes` says that the error
wraps a `MaxBytesError`. -/
inductive Payload
  | unparsable (maxBytes : Bool) (err : String)
  | noFile (err : String)
  | file (file : UploadedFile)
deriving DecidableEq

structure UploadRequest where
  method : Method
  payload : Payload
deriving DecidableEq

inductive UploadAnswer
  | preflight
  | error (code : ℕ) (msg : String)
  | uploaded (url name : String) (size : ℕ) (type : String)
deriving DecidableEq

def mimeExts : List (String × String) := [
  ("image/jpeg", ".jpg"), ("image/png", ".png"), ("image/gif", ".gif"), ("image/webp", ".webp"),
  ("image/svg+xml", ".svg"), ("image/heic", ".heic"), ("image/heif", ".heif"),
  ("image/avif", ".avif"), ("audio/mpeg", ".mp3"), ("audio/mp3", ".mp3"), ("audio/ogg", ".ogg"),
  ("audio/wav", ".wav"), ("audio/x-wav", ".wav"), ("audio/aac", ".aac"), ("audio/flac", ".flac"),
  ("audio/webm", ".weba"), ("video/mp4", ".mp4"), ("video/webm", ".webm"),
  ("video/quicktime", ".mov"), ("text/plain", ".txt"), ("text/csv", ".csv"),
  ("application/pdf", ".pdf"), ("application/json", ".json"), ("application/zip", ".zip")]

def allowedExts : List String := [
  ".jpg", ".jpeg", ".png", ".gif", ".webp", ".bmp", ".ico", ".tiff", ".tif", ".svg", ".heic",
  ".heif", ".avif",
  ".mp3", ".ogg", ".wav", ".m4a", ".aac", ".flac", ".opus", ".weba", ".mid", ".midi",
  ".mp4", ".webm", ".mov", ".mkv", ".avi", ".m4v", ".3gp", ".wmv",
  ".pdf", ".txt", ".csv", ".tsv", ".log", ".json", ".xml", ".md", ".markdown", ".doc", ".docx",
  ".xls", ".xlsx", ".ppt", ".pptx", ".rtf", ".odt", ".ods",
  ".zip", ".rar", ".7z", ".tar", ".gz", ".bz2"]

/-- `envLimit` is what `strconv.Atoi` reads in `MAX_UPLOAD_SIZE_MB`. -/
def maxUploadMB (envLimit : Option ℤ) : ℤ :=
  match envLimit with
  | some val => if 0 < val then val else 500
  | none => 500

section Checks

variable (lower : String → String) (envLimit : Option ℤ)

/-- The extension of the name, or else what the MIME type stands for. `lower` is
`strings.ToLower`. -/
def uploadExt (file : UploadedFile) : String :=
  let ext := lower (Filepath.ext file.filename)
  if ext = "" ∧ file.contentType ≠ "" then
    let mime := String.ofList (file.contentType.toList.takeWhile (· ≠ ';'))
    (mimeExts.lookup (lower (trimSpace mime))).getD ""
  else ext

/-- All that the handler of `/api/upload` does before it draws a file name. -/
def checkUpload (r : UploadRequest) : Except UploadAnswer (UploadedFile × String) :=
  match r.method with
  | .options => .error .preflight
  | .other => .error (.error 405 "Method not allowed")
  | .post =>
    match r.payload with
    | .unparsable maxBytes err =>
      if maxBytes ∨ "too large".toList <:+: (lower err).toList then
        .error (.error 413 ("File exceeds maximum permitted size (" ++
          toString (maxUploadMB envLimit) ++ "MB)"))
      else .error (.error 400 ("Invalid upload payload: " ++ err))
    | .noFile err => .error (.error 400 ("No file provided in form field 'file': " ++ err))
    | .file file =>
      let ext := uploadExt lower file
      if ext ∈ allowedExts then .ok (file, ext)
      else
        let displayExt := if ext = "" then "unspecified" else ext
        .error (.error 400
          ("File format '" ++ displayExt ++ "' is not supported for security reasons"))

end Checks

/-- When a name was drawn, and the random bytes it was drawn with. -/
@[ext] structure UploadStamp where
  now : ℤ
  random : Fin 4 → UInt8
deriving DecidableEq

def hexEncode (bytes : Bytes) : List Char :=
  bytes.flatMap fun b => [Nat.digitChar (b.toNat / 16), Nat.digitChar (b.toNat % 16)]

def generateID (random : Fin 4 → UInt8) : String := String.ofList (hexEncode (List.ofFn random))

def savedName (stamp : UploadStamp) (ext : String) : String :=
  toString stamp.now ++ "_" ++ generateID stamp.random ++ ext

def uploadDir : String := "./data/uploads"

def recordingsDir : String := "./data/recordings"

def dstPath (stamp : UploadStamp) (ext : String) : String := join [uploadDir, savedName stamp ext]

inductive UploadPhase
  | creating (file : UploadedFile) (ext : String)
  | copying (file : UploadedFile) (ext : String) (written : ℕ)
  | answered (answer : UploadAnswer)
deriving DecidableEq

/-- A call of the handler. A call that is refused draws no stamp; the one here is then unused. -/
structure UploadHandler where
  request : UploadRequest
  stamp : UploadStamp
  phase : UploadPhase
deriving DecidableEq

/-- The recorder and the upload handlers share the disk. -/
structure FileServer where
  recorder : AudioRecorder
  handlers : List UploadHandler := []

namespace FileServer

def setFiles (files : String → Option Bytes) (s : FileServer) : FileServer :=
  { s with recorder.disk.files := files }

def setPhase (h : ℕ) (x : UploadHandler) (phase : UploadPhase) (s : FileServer) : FileServer :=
  { s with handlers := s.handlers.set h { x with phase := phase } }

variable {files : String → Option Bytes} {h : ℕ} {x : UploadHandler} {phase : UploadPhase}
  {s : FileServer}

@[simp] theorem setFiles_files : (s.setFiles files).recorder.disk.files = files := rfl

@[simp] theorem setFiles_storageDir :
    (s.setFiles files).recorder.storageDir = s.recorder.storageDir := rfl

@[simp] theorem setFiles_handlers : (s.setFiles files).handlers = s.handlers := rfl

@[simp] theorem setPhase_recorder : (s.setPhase h x phase).recorder = s.recorder := rfl

@[simp] theorem setPhase_handlers :
    (s.setPhase h x phase).handlers = s.handlers.set h { x with phase := phase } := rfl

end FileServer

/-- Writing at an offset of an open file, which may have shrunk under its writer. -/
def writeAt (offset : ℕ) (chunk old : Bytes) : Bytes :=
  old.take offset ++ List.replicate (offset - old.length) 0 ++ chunk ++
    old.drop (offset + chunk.length)

inductive FileEvent
  | upload (request : UploadRequest) (stamp : UploadStamp)
  /-- `os.Create`, with its error if it has one. -/
  | create (h : ℕ) (err : Option String)
  /-- `io.Copy` writes the next `n` bytes. -/
  | copy (h n : ℕ)
  | copyError (h : ℕ) (err : String)
  | respond (h : ℕ)
  | transmissionStart (channelID : ChannelID) (speaker : Client) (now : ℤ)
  | appendAudio (channelID : ChannelID) (payload : Bytes)
  | transmissionEnd (channelID : ChannelID) (now : ℤ)

section Steps

variable (lower : String → String) (envLimit : Option ℤ)

/-- One atomic step of any handler, or one critical section of the recorder. -/
def fileStep (s : FileServer) : FileEvent → Option FileServer
  | .upload request stamp =>
    let phase := match checkUpload lower envLimit request with
      | .error answer => .answered answer
      | .ok (file, ext) => .creating file ext
    some { s with handlers := s.handlers ++ [⟨request, stamp, phase⟩] }
  | .create h err =>
    match s.handlers[h]? with
    | some ⟨request, stamp, .creating file ext⟩ =>
      let x : UploadHandler := ⟨request, stamp, .creating file ext⟩
      match err with
      | some err => some (s.setPhase h x (.answered (.error 500 ("Failed to save file: " ++ err))))
      | none =>
        let files := Function.update s.recorder.disk.files (dstPath stamp ext) (some [])
        some ((s.setFiles files).setPhase h x (.copying file ext 0))
    | _ => none
  | .copy h n =>
    match s.handlers[h]? with
    | some ⟨request, stamp, .copying file ext written⟩ =>
      let x : UploadHandler := ⟨request, stamp, .copying file ext written⟩
      let chunk := (file.content.drop written).take n
      let path := dstPath stamp ext
      let files := Function.update s.recorder.disk.files path
        ((s.recorder.disk.files path).map (writeAt written chunk))
      some ((s.setFiles files).setPhase h x (.copying file ext (written + chunk.length)))
    | _ => none
  | .copyError h err =>
    match s.handlers[h]? with
    | some ⟨request, stamp, .copying file ext written⟩ =>
      let x : UploadHandler := ⟨request, stamp, .copying file ext written⟩
      some (s.setPhase h x (.answered (.error 500 ("Failed to write file data: " ++ err))))
    | _ => none
  | .respond h =>
    match s.handlers[h]? with
    | some ⟨request, stamp, .copying file ext written⟩ =>
      let x : UploadHandler := ⟨request, stamp, .copying file ext written⟩
      if written = file.content.length then
        some (s.setPhase h x (.answered (.uploaded ("/uploads/" ++ savedName stamp ext)
          file.filename file.content.length file.contentType)))
      else none
    | _ => none
  | .transmissionStart channelID speaker now =>
    some { s with recorder := s.recorder.onTransmissionStart channelID speaker now }
  | .appendAudio channelID payload =>
    some { s with recorder := s.recorder.appendAudio channelID payload }
  | .transmissionEnd channelID now =>
    some { s with recorder := (s.recorder.onTransmissionEnd channelID now).2 }

end Steps

/-- The file that `http.FileServer` finds below `http.StripPrefix`. -/
def serveUploads (files : String → Option Bytes) (urlPath : String) : Option Bytes :=
  if "/uploads/".toList <+: urlPath.toList then
    files (join [uploadDir, clean (String.ofList ('/' :: urlPath.toList.drop 9))])
  else none

section Names

theorem digitChar_sixteen : ∀ m n : Fin 16,
    (Nat.digitChar m = Nat.digitChar n → m = n) ∧ Nat.digitChar m ≠ '/' := by decide

theorem length_hexEncode (bytes : Bytes) : (hexEncode bytes).length = 2 * bytes.length := by
  induction bytes with
  | nil => rfl
  | cons b bytes ih =>
    rw [hexEncode, List.flatMap_cons, List.length_append, ← hexEncode, ih, List.length_cons]
    simp
    omega

theorem hexEncode_injective : Function.Injective hexEncode := by
  intro a
  induction a with
  | nil =>
    intro b h
    have hlength := congrArg List.length h
    rw [length_hexEncode, length_hexEncode, List.length_nil] at hlength
    exact (List.length_eq_zero_iff.mp (by omega)).symm
  | cons x a ih =>
    rintro (_ | ⟨y, b⟩) h
    · have hlength := congrArg List.length h
      rw [length_hexEncode, length_hexEncode] at hlength
      simp at hlength
    · have hx := x.toNat_lt
      have hy := y.toNat_lt
      simp only [hexEncode, List.flatMap_cons, List.cons_append, List.nil_append,
        List.cons.injEq] at h
      obtain ⟨hhigh, hlow, hrest⟩ := h
      have high := (digitChar_sixteen ⟨x.toNat / 16, by omega⟩ ⟨y.toNat / 16, by omega⟩).1 hhigh
      have low := (digitChar_sixteen ⟨x.toNat % 16, by omega⟩ ⟨y.toNat % 16, by omega⟩).1 hlow
      simp only [Fin.mk.injEq] at high low
      have hxy : x = y := UInt8.toNat_inj.mp (by omega)
      rw [hxy, ih hrest]

theorem slash_notMem_hexEncode (bytes : Bytes) : '/' ∉ hexEncode bytes := by
  intro hmem
  obtain ⟨b, -, hb⟩ := List.mem_flatMap.mp hmem
  have hlt := b.toNat_lt
  have high := (digitChar_sixteen ⟨b.toNat / 16, by omega⟩ 0).2
  have low := (digitChar_sixteen ⟨b.toNat % 16, by omega⟩ 0).2
  simp only [List.mem_cons, List.not_mem_nil, or_false] at hb
  obtain hb | hb := hb
  · exact high hb.symm
  · exact low hb.symm

variable {a b : UploadStamp} {ext ext' : String}

theorem toList_savedName (stamp : UploadStamp) (ext : String) :
    (savedName stamp ext).toList = (toString stamp.now).toList ++
      '_' :: (hexEncode (List.ofFn stamp.random) ++ ext.toList) := by
  simp [savedName, generateID]

theorem underscore_notMem_toString (n : ℤ) : '_' ∉ (toString n).toList := fun h =>
  ne_of_digit (isDigit_of_mem_toString h) (.inr rfl) rfl

/-- The name says which stamp it was made from. -/
theorem savedName_injective (h : savedName a ext = savedName b ext') : a = b := by
  have hlist := congrArg String.toList h
  rw [toList_savedName, toList_savedName] at hlist
  obtain ⟨hnow, hrest⟩ := eq_of_append_cons_eq (underscore_notMem_toString _)
    (underscore_notMem_toString _) hlist
  have hrandom := List.append_inj_left hrest (by simp [length_hexEncode])
  apply UploadStamp.ext
  · rw [← decimalValue_toString a.now, hnow, decimalValue_toString]
  · exact List.ofFn_injective (hexEncode_injective hrandom)

theorem slash_notMem_allowedExts : ∀ ext ∈ allowedExts, '/' ∉ ext.toList := by decide

theorem ordinary_savedName (stamp : UploadStamp) (hext : ext ∈ allowedExts) :
    Filepath.Ordinary (savedName stamp ext).toList := by
  have hnow : '/' ∉ (toString stamp.now).toList := fun h =>
    ne_of_digit (isDigit_of_mem_toString h) (.inl rfl) rfl
  rw [toList_savedName]
  refine ⟨?_, ?_, ?_, ?_⟩
  · simp only [List.mem_append, List.mem_cons, not_or]
    exact ⟨hnow, by decide, slash_notMem_hexEncode _, slash_notMem_allowedExts ext hext⟩
  all_goals
    intro h
    have hlength := congrArg List.length h
    simp [length_hexEncode] at hlength
    try omega

theorem dstPath_eq (stamp : UploadStamp) (ext : String) :
    dstPath stamp ext = join [uploadDir, String.ofList (savedName stamp ext).toList] := by
  rw [dstPath, String.ofList_toList]

theorem dstPath_injective (hext : ext ∈ allowedExts) (hext' : ext' ∈ allowedExts)
    (h : dstPath a ext = dstPath b ext') : a = b := by
  rw [dstPath_eq, dstPath_eq] at h
  exact savedName_injective (String.toList_injective
    (join_ordinary_injective (ordinary_savedName a hext) (ordinary_savedName b hext') h))

/-- The URL of an answer leads to the file that was written for it. -/
theorem serveUploads_savedName (files : String → Option Bytes) (stamp : UploadStamp)
    (hext : ext ∈ allowedExts) :
    serveUploads files ("/uploads/" ++ savedName stamp ext) = files (dstPath stamp ext) := by
  have hname := ordinary_savedName stamp hext
  have hdir : uploadDir ≠ "" := by decide
  have hprefix : "/uploads/".toList <+: ("/uploads/" ++ savedName stamp ext).toList := by
    rw [String.toList_append]
    exact List.prefix_append _ _
  have hrest :
      ("/uploads/" ++ savedName stamp ext).toList.drop 9 = (savedName stamp ext).toList := by
    rw [String.toList_append]
    exact List.drop_left' rfl
  rw [serveUploads, if_pos hprefix, hrest, clean_rooted hname, join_rooted hdir hname, dstPath_eq]

end Names

section Recorder

variable {name : List Char} {r : AudioRecorder}

/-- The path of an entry of the upload directory. -/
theorem join_uploadDir (hname : Filepath.Ordinary name) :
    join [uploadDir, String.ofList name] =
      render false [name, "uploads".toList, "data".toList] := by
  rw [join_ordinary uploadDir hname]
  rfl

theorem separated_upload (hname : Filepath.Ordinary name) :
    Separated [name, "uploads".toList, "data".toList] :=
  Separated.cons hname.1 hname.2.1 (by unfold Separated; decide)

/-- An eviction removes nothing from the upload directory. -/
theorem oldFilePath_ne (hname : Filepath.Ordinary name) (url : String) :
    join [recordingsDir, base url] ≠ join [uploadDir, String.ofList name] := by
  rw [join_uploadDir hname]
  have hsep := separated_upload hname
  have differs {dir : List (List Char)} (hdir : Separated dir) (hne : dir ≠ [])
      (hother : dir ≠ [name, "uploads".toList, "data".toList]) :
      render false dir ≠ render false [name, "uploads".toList, "data".toList] :=
    fun h => hother (render_injective hdir hsep hne (by simp) h)
  have hrec : Separated ["recordings".toList, "data".toList] := by unfold Separated; decide
  obtain hslash | ⟨e, he, hslash, hne⟩ := base_cases url
  · rw [hslash, show join [recordingsDir, "/"] =
      render false ["recordings".toList, "data".toList] by decide]
    exact differs hrec (by simp) (by simp)
  · have hrel : rooted (String.ofList e) = false := by
      cases e with
      | nil => exact absurd rfl hne
      | cons c cs =>
        have hc : c ≠ '/' := fun h => hslash (by simp [h])
        simp [rooted, hc]
    have hwalk : walk false (resolve recordingsDir) [e] =
        cleanElement false ["recordings".toList, "data".toList] e := rfl
    rw [he, join_pair recordingsDir (by simpa using hne) hrel, elements, String.toList_ofList,
      List.splitOn_eq_singleton hslash, show rooted recordingsDir = false by decide, hwalk]
    by_cases hskip : e = [] ∨ e = ['.']
    · rw [cleanElement_skip hskip]
      exact differs hrec (by simp) (by simp)
    · by_cases hup : e = ['.', '.']
      · rw [hup, cleanElement_up, if_neg (by decide)]
        exact differs (by unfold Separated; decide) (by simp) (by simp)
      · rw [cleanElement_name hskip hup]
        exact differs (hrec.cons hslash hne) (by simp) fun h =>
          absurd (List.head_eq_of_cons_eq (List.tail_eq_of_cons_eq h)) (by decide)

/-- A recording may land in the upload directory, but not under any name. -/
theorem filePath_upload {channelID : ChannelID} {callsign : String} {now : ℤ}
    (hname : Filepath.Ordinary name)
    (h : join [recordingsDir, recordingName channelID callsign now] =
      join [uploadDir, String.ofList name]) : ∃ front, name = front ++ nameTail now := by
  obtain ⟨dirs, file, helements, hfile, -⟩ := elements_recordingName channelID callsign now
  obtain ⟨hrel, hne⟩ := rooted_recordingName channelID callsign now
  have hwalked : ∀ l ∈ dirs, '/' ∉ l := fun l hl =>
    notMem_of_mem_splitOn (show l ∈ elements (recordingName channelID callsign now) by
      rw [helements]
      exact List.mem_append_left _ hl)
  rw [join_pair recordingsDir hne hrel, helements, walk_concat hfile, join_uploadDir hname] at h
  have hstack := render_injective
    ((separated_walk (separated_resolve recordingsDir) hwalked).cons hfile.1 hfile.2.1)
    (separated_upload hname) (by simp) (by simp) h
  obtain rfl : file = name := List.head_eq_of_cons_eq hstack
  -- the last element ends as the whole name does
  obtain hnil | ⟨front, last, hsplit⟩ := List.eq_nil_or_concat'
    ((nameHead channelID ++ callsign.toList).splitOn '/')
  · exact absurd hnil (List.splitOn_ne_nil _ _)
  · have hall := splitOn_append hsplit (slash_notMem_nameTail now)
    rw [← toList_recordingName] at hall
    have hlast := List.append_inj_right' (helements.symm.trans hall) rfl
    exact ⟨last, List.singleton_inj.mp hlast⟩

theorem foldl_update_none {paths : List String} {path : String} (hpaths : path ∉ paths)
    (files : String → Option Bytes) :
    paths.foldl (fun files p => Function.update files p none) files path = files path := by
  induction paths generalizing files with
  | nil => rfl
  | cons p paths ih =>
    rw [List.mem_cons, not_or] at hpaths
    rw [List.foldl_cons, ih hpaths.2, Function.update_of_ne hpaths.1]

/-- All that the recorder can do to a file in the upload directory. -/
theorem files_onTransmissionEnd (hdir : r.storageDir = recordingsDir)
    (hname : Filepath.Ordinary name) (channelID : ChannelID) (now : ℤ) :
    (r.onTransmissionEnd channelID now).2.disk.files (join [uploadDir, String.ofList name]) =
        r.disk.files (join [uploadDir, String.ofList name]) ∨
      ∃ tx, r.activeTX channelID = some tx ∧
        join [recordingsDir, recordingName channelID tx.callsign now] =
          join [uploadDir, String.ofList name] := by
  obtain ⟨tx, -, htx, -, hend⟩ | ⟨_, hend, -⟩ := r.onTransmissionEnd_cases channelID now
  swap
  · exact .inl (by rw [hend])
  by_cases hpath : r.filePath channelID tx.callsign now = join [uploadDir, String.ofList name]
  · rw [AudioRecorder.filePath, hdir] at hpath
    exact .inr ⟨tx, htx, hpath⟩
  · left
    have hevicted : join [uploadDir, String.ofList name] ∉
        (r.evicted (AudioRecorder.recordingOf tx channelID now)).map fun e =>
          join [r.storageDir, base e.fileURL] := by
      rw [List.mem_map]
      rintro ⟨e, -, he⟩
      rw [hdir] at he
      exact oldFilePath_ne hname e.fileURL he
    rw [hend]
    dsimp only [AudioRecorder.archive]
    rw [AudioRecorder.files_removeFiles]
    have hfold := foldl_update_none hevicted
    simp only [List.foldl_map] at hfold
    rw [hfold]
    exact Function.update_of_ne (Ne.symm hpath) ..

end Recorder

section Handlers

variable {lower : String → String} {envLimit : Option ℤ} {files files' : String → Option Bytes}

theorem allowed_of_checkUpload {request : UploadRequest} {file : UploadedFile} {ext : String}
    (h : checkUpload lower envLimit request = .ok (file, ext)) : ext ∈ allowedExts := by
  unfold checkUpload at h
  split at h
  · cases h
  · cases h
  · split at h
    · split_ifs at h
    · cases h
    · dsimp only at h
      split_ifs at h with hallowed
      cases h
      exact hallowed

namespace UploadHandler

/-- A call that goes on has passed its checks. -/
def Checked (lower : String → String) (envLimit : Option ℤ) (x : UploadHandler) : Prop :=
  match x.phase with
  | .creating file ext => checkUpload lower envLimit x.request = .ok (file, ext)
  | .copying file ext _ => checkUpload lower envLimit x.request = .ok (file, ext)
  | .answered _ => True

/-- What a call has written so far is what is on the disk. -/
def Kept (lower : String → String) (envLimit : Option ℤ) (files : String → Option Bytes)
    (x : UploadHandler) : Prop :=
  match x.phase with
  | .creating _ _ => True
  | .copying file ext written => written ≤ file.content.length ∧
      files (dstPath x.stamp ext) = some (file.content.take written)
  | .answered answer => ∀ url name size type, answer = .uploaded url name size type →
      ∃ file ext, checkUpload lower envLimit x.request = .ok (file, ext) ∧
        url = "/uploads/" ++ savedName x.stamp ext ∧ name = file.filename ∧
        size = file.content.length ∧ type = file.contentType ∧
        files (dstPath x.stamp ext) = some file.content

theorem Kept.congr {x : UploadHandler} (hc : x.Checked lower envLimit)
    (h : x.Kept lower envLimit files)
    (hfiles : ∀ ext ∈ allowedExts, files' (dstPath x.stamp ext) = files (dstPath x.stamp ext)) :
    x.Kept lower envLimit files' := by
  obtain ⟨request, stamp, phase⟩ := x
  cases phase with
  | creating file ext => trivial
  | copying file ext written =>
    exact ⟨h.1, (hfiles ext (allowed_of_checkUpload hc)).trans h.2⟩
  | answered answer =>
    intro url name size type hanswer
    obtain ⟨file, ext, hcheck, hurl, hname, hsize, htype, hfile⟩ := h url name size type hanswer
    exact ⟨file, ext, hcheck, hurl, hname, hsize, htype,
      (hfiles ext (allowed_of_checkUpload hcheck)).trans hfile⟩

end UploadHandler

theorem writeAt_take {n k : ℕ} {content : Bytes} (hn : n ≤ content.length) :
    writeAt n ((content.drop n).take k) (content.take n) =
      content.take (n + ((content.drop n).take k).length) := by
  have hlength : (content.take n).length = n := List.length_take_of_le hn
  have hdrop : (content.take n).drop (n + ((content.drop n).take k).length) = [] :=
    List.drop_eq_nil_of_le (by omega)
  rw [writeAt, hdrop, hlength, Nat.sub_self, List.replicate_zero, List.take_take, Nat.min_self,
    List.append_nil, List.append_nil, List.take_add]
  congr 1
  rw [List.length_take, List.take_eq_take_iff]
  omega

theorem shape_of_allowedExts : ∀ ext ∈ allowedExts,
    ext.toList = '.' :: ext.toList.tail ∧ '_' ∉ ext.toList := by decide

/-- A recording made nine digits of seconds into the epoch, or later, has no upload's name. -/
theorem savedName_ne_nameTail {stamp : UploadStamp} {ext : String} {front : List Char} {now : ℤ}
    (hext : ext ∈ allowedExts) (hnow : 100000000 ≤ now / 1000000000) :
    (savedName stamp ext).toList ≠ front ++ nameTail now := by
  intro h
  obtain ⟨hdot, hunderscore⟩ := shape_of_allowedExts ext hext
  have hhex : ∀ c ∈ ['_', '.'], c ∉ hexEncode (List.ofFn stamp.random) := by
    intro c hc hmem
    obtain ⟨b, -, hb⟩ := List.mem_flatMap.mp hmem
    have hlt := b.toNat_lt
    have digit : ∀ n : Fin 16, Nat.digitChar n ≠ '_' ∧ Nat.digitChar n ≠ '.' := by decide
    have high := digit ⟨b.toNat / 16, by omega⟩
    have low := digit ⟨b.toNat % 16, by omega⟩
    simp only [List.mem_cons, List.not_mem_nil, or_false] at hb hc
    obtain rfl | rfl := hc
    · exact hb.elim (fun h => high.1 h.symm) fun h => low.1 h.symm
    · exact hb.elim (fun h => high.2 h.symm) fun h => low.2 h.symm
  -- what follows the last underscore
  have hback := congrArg List.reverse h
  simp only [toList_savedName, nameTail, List.cons_append, List.reverse_append, List.reverse_cons,
    List.append_assoc] at hback
  have hleft : '_' ∉ ext.toList.reverse ++ (hexEncode (List.ofFn stamp.random)).reverse := by
    simp only [List.mem_append, List.mem_reverse, not_or]
    exact ⟨hunderscore, hhex '_' (by simp)⟩
  have hright : '_' ∉ ['.', 'w', 'a', 'v'].reverse ++
      (toString (now / 1000000000)).toList.reverse := by
    rw [List.mem_append, not_or, List.mem_reverse, List.mem_reverse]
    exact ⟨by decide, underscore_notMem_toString _⟩
  rw [← List.append_assoc, ← List.append_assoc] at hback
  have htail := (eq_of_append_cons_eq hleft hright hback).1
  rw [← List.reverse_append, ← List.reverse_append] at htail
  have hsame := List.reverse_injective htail
  -- and what of it precedes the dot
  rw [hdot] at hsame
  have hnodot : '.' ∉ (toString (now / 1000000000)).toList := by
    intro hmem
    obtain hc | hc := isDigit_of_mem_toString hmem <;> revert hc <;> decide
  have hdigits := (eq_of_append_cons_eq (hhex '.' (by simp)) hnodot hsame).1
  have hlength := congrArg List.length hdigits
  rw [length_hexEncode, List.length_ofFn, toList_toString, if_pos (by omega)] at hlength
  have hshort := (Nat.length_toDigits_le_iff (b := 10) (by decide) (by decide)).mp hlength.ge
  omega

end Handlers

section Runs

variable {lower : String → String} {envLimit : Option ℤ} {s t : FileServer} {e : FileEvent}

/-- What step `e` of the handler `x` leaves: its phase `y`, and the file it wrote to. -/
structure HandlerStep (lower : String → String) (envLimit : Option ℤ) (s t : FileServer) (i : ℕ)
    (x y : UploadHandler) : Prop where
  found : s.handlers[i]? = some x
  handlers : t.handlers = s.handlers.set i y
  stamp : y.stamp = x.stamp
  request : y.request = x.request
  storageDir : t.recorder.storageDir = s.recorder.storageDir
  checked : x.Checked lower envLimit → y.Checked lower envLimit
  kept : x.Checked lower envLimit → x.Kept lower envLimit s.recorder.disk.files →
    y.Kept lower envLimit t.recorder.disk.files
  wrote : x.Checked lower envLimit → ∀ path,
    t.recorder.disk.files path = s.recorder.disk.files path ∨
      ∃ file ext, checkUpload lower envLimit x.request = .ok (file, ext) ∧
        path = dstPath x.stamp ext

/-- What a step of the recorder leaves of the upload directory. -/
structure RecorderStep (s t : FileServer) (e : FileEvent) : Prop where
  handlers : t.handlers = s.handlers
  storageDir : t.recorder.storageDir = s.recorder.storageDir
  files : s.recorder.storageDir = recordingsDir → ∀ name, Filepath.Ordinary name →
    t.recorder.disk.files (join [uploadDir, String.ofList name]) =
        s.recorder.disk.files (join [uploadDir, String.ofList name]) ∨
      ∃ channelID now tx, e = .transmissionEnd channelID now ∧
        s.recorder.activeTX channelID = some tx ∧
        join [recordingsDir, recordingName channelID tx.callsign now] =
          join [uploadDir, String.ofList name]

theorem update_cases (files : String → Option Bytes) (path : String) (v : Option Bytes)
    (other : String) : Function.update files path v other = files other ∨ other = path := by
  by_cases hother : other = path
  · exact .inr hother
  · exact .inl (Function.update_of_ne hother ..)

theorem checkUpload_ne_uploaded {request : UploadRequest} {url name type : String} {size : ℕ} :
    checkUpload lower envLimit request ≠ .error (.uploaded url name size type) := by
  intro h
  unfold checkUpload at h
  split at h
  · cases h
  · cases h
  · split at h
    · split_ifs at h <;> cases h
    · cases h
    · dsimp only at h
      split_ifs at h <;> cases h

/-- A handler that only answers, with an error. -/
theorem handlerStep_error {i : ℕ} {x : UploadHandler} {code : ℕ} {msg : String}
    (hfound : s.handlers[i]? = some x) :
    HandlerStep lower envLimit s (s.setPhase i x (.answered (.error code msg))) i x
      { x with phase := .answered (.error code msg) } where
  found := hfound
  handlers := rfl
  stamp := rfl
  request := rfl
  storageDir := rfl
  checked _ := trivial
  kept _ _ _ _ _ _ h := by cases h
  wrote _ _ := .inl rfl

/-- A handler that writes to its file and goes on copying. -/
theorem handlerStep_copying {i n : ℕ} {x : UploadHandler} {file : UploadedFile} {ext : String}
    {v : Option Bytes} (hfound : s.handlers[i]? = some x)
    (hchecked : x.Checked lower envLimit → checkUpload lower envLimit x.request = .ok (file, ext))
    (hv : x.Kept lower envLimit s.recorder.disk.files →
      n ≤ file.content.length ∧ v = some (file.content.take n)) :
    HandlerStep lower envLimit s ((s.setFiles (Function.update s.recorder.disk.files
        (dstPath x.stamp ext) v)).setPhase i x (.copying file ext n)) i x
      { x with phase := .copying file ext n } where
  found := hfound
  handlers := by simp
  stamp := rfl
  request := rfl
  storageDir := by simp
  checked := hchecked
  kept _ hkept := by
    obtain ⟨hn, rfl⟩ := hv hkept
    refine ⟨hn, ?_⟩
    simp
  wrote hc path := by
    rw [FileServer.setPhase_recorder, FileServer.setFiles_files]
    exact (update_cases _ _ _ path).imp_right fun hpath => ⟨file, ext, hchecked hc, hpath⟩

/-- A call that starts: it stops at its checks, or goes on to create its file. -/
theorem upload_started {request : UploadRequest} {stamp : UploadStamp}
    (h : fileStep lower envLimit s (.upload request stamp) = some t) :
    ∃ x : UploadHandler, x.request = request ∧ x.stamp = stamp ∧
      t = { s with handlers := s.handlers ++ [x] } ∧ x.Checked lower envLimit ∧
      x.Kept lower envLimit s.recorder.disk.files := by
  refine ⟨_, ?_, ?_, (Option.some.inj h).symm, ?_, ?_⟩
  · rfl
  · rfl
  all_goals cases hcheck : checkUpload lower envLimit request with
    | error answer => ?_
    | ok passed => ?_
  · simp [UploadHandler.Checked]
  · simpa [UploadHandler.Checked] using hcheck
  · simp only [UploadHandler.Kept]
    rintro url name size type rfl
    exact absurd hcheck checkUpload_ne_uploaded
  · simp [UploadHandler.Kept]

theorem handlerStep_create {i : ℕ} {err : Option String}
    (h : fileStep lower envLimit s (.create i err) = some t) :
    ∃ x y, HandlerStep lower envLimit s t i x y := by
  dsimp only [fileStep] at h
  split at h
  · rename_i request stamp file ext hfound
    cases err with
    | some err =>
      obtain rfl := Option.some.inj h
      exact ⟨_, _, handlerStep_error hfound⟩
    | none =>
      obtain rfl := Option.some.inj h
      exact ⟨_, _, handlerStep_copying hfound id fun _ => ⟨Nat.zero_le _, rfl⟩⟩
  · cases h

theorem handlerStep_copy {i n : ℕ} (h : fileStep lower envLimit s (.copy i n) = some t) :
    ∃ x y, HandlerStep lower envLimit s t i x y := by
  dsimp only [fileStep] at h
  split at h
  · rename_i request stamp file ext written hfound
    obtain rfl := Option.some.inj h
    refine ⟨_, _, handlerStep_copying hfound id fun hkept => ⟨?_, ?_⟩⟩
    · have hle : written ≤ file.content.length := hkept.1
      rw [List.length_take, List.length_drop]
      omega
    · have hfile : s.recorder.disk.files (dstPath stamp ext) =
        some (file.content.take written) := hkept.2
      rw [hfile, Option.map_some, writeAt_take hkept.1]
  · cases h

theorem handlerStep_copyError {i : ℕ} {err : String}
    (h : fileStep lower envLimit s (.copyError i err) = some t) :
    ∃ x y, HandlerStep lower envLimit s t i x y := by
  dsimp only [fileStep] at h
  split at h
  · rename_i hfound
    obtain rfl := Option.some.inj h
    exact ⟨_, _, handlerStep_error hfound⟩
  · cases h

/-- A handler that answers with success has all of the content on the disk. -/
theorem handlerStep_respond {i : ℕ} (h : fileStep lower envLimit s (.respond i) = some t) :
    ∃ x y, HandlerStep lower envLimit s t i x y := by
  dsimp only [fileStep] at h
  split at h
  · rename_i request stamp file ext written hfound
    split_ifs at h with hall
    obtain rfl := Option.some.inj h
    refine ⟨_, _, hfound, rfl, rfl, rfl, rfl, fun _ => trivial, ?_, fun _ _ => .inl rfl⟩
    intro hc hkept url name size type hanswer
    cases hanswer
    have hfile : s.recorder.disk.files (dstPath stamp ext) =
      some (file.content.take written) := hkept.2
    rw [hall, List.take_length] at hfile
    exact ⟨file, ext, hc, rfl, rfl, rfl, rfl, hfile⟩
  · cases h

/-- The recorder writes nothing until a transmission ends. -/
theorem recorderStep_disk {r : AudioRecorder} (hdir : r.storageDir = s.recorder.storageDir)
    (hdisk : r.disk = s.recorder.disk) : RecorderStep s { s with recorder := r } e :=
  ⟨rfl, hdir, fun _ name _ => .inl (by rw [hdisk])⟩

theorem recorderStep_transmissionEnd {channelID : ChannelID} {now : ℤ} :
    RecorderStep s { s with recorder := (s.recorder.onTransmissionEnd channelID now).2 }
      (.transmissionEnd channelID now) := by
  refine ⟨rfl, ?_, fun hdir name hname => ?_⟩
  · obtain ⟨tx, -, -, -, hend⟩ | ⟨_, hend, -⟩ := s.recorder.onTransmissionEnd_cases channelID now
    all_goals exact congrArg (fun ended => ended.2.storageDir) hend
  · obtain hsame | ⟨tx, htx, hpath⟩ := files_onTransmissionEnd hdir hname channelID now
    · exact .inl hsame
    · exact .inr ⟨channelID, now, tx, rfl, htx, hpath⟩

theorem fileStep_cases (h : fileStep lower envLimit s e = some t) :
    (∃ x : UploadHandler, e = .upload x.request x.stamp ∧
      t = { s with handlers := s.handlers ++ [x] } ∧ x.Checked lower envLimit ∧
      x.Kept lower envLimit s.recorder.disk.files) ∨
    (∃ i x y, HandlerStep lower envLimit s t i x y) ∨ RecorderStep s t e := by
  cases e with
  | upload request stamp =>
    obtain ⟨x, rfl, rfl, hstarted⟩ := upload_started h
    exact .inl ⟨x, rfl, hstarted⟩
  | create i err => exact .inr (.inl ⟨i, handlerStep_create h⟩)
  | copy i n => exact .inr (.inl ⟨i, handlerStep_copy h⟩)
  | copyError i err => exact .inr (.inl ⟨i, handlerStep_copyError h⟩)
  | respond i => exact .inr (.inl ⟨i, handlerStep_respond h⟩)
  | transmissionStart channelID speaker now =>
    obtain rfl := Option.some.inj h
    refine .inr (.inr (recorderStep_disk ?_ ?_)) <;>
      · unfold AudioRecorder.onTransmissionStart
        split_ifs <;> rfl
  | appendAudio channelID payload =>
    obtain rfl := Option.some.inj h
    refine .inr (.inr (recorderStep_disk ?_ ?_)) <;>
      · unfold AudioRecorder.appendAudio
        split_ifs
        · rfl
        · split
          · rfl
          · split_ifs <;> rfl
  | transmissionEnd channelID now =>
    obtain rfl := Option.some.inj h
    exact .inr (.inr recorderStep_transmissionEnd)

/-- A file of the upload directory that the events changed from `files` on has been written by an
upload, or is the recording of a transmission that ended among them. -/
def Accounted (lower : String → String) (envLimit : Option ℤ) (files : String → Option Bytes)
    (es : List FileEvent) (s : FileServer) (name : List Char) : Prop :=
  s.recorder.disk.files (join [uploadDir, String.ofList name]) =
      files (join [uploadDir, String.ofList name]) ∨
    (∃ x ∈ s.handlers, ∃ file ext, checkUpload lower envLimit x.request = .ok (file, ext) ∧
      ext ∈ allowedExts ∧ name = (savedName x.stamp ext).toList) ∨
    ∃ channelID now callsign, .transmissionEnd channelID now ∈ es ∧
      join [recordingsDir, recordingName channelID callsign now] =
        join [uploadDir, String.ofList name]

structure FileServer.Guarding (lower : String → String) (envLimit : Option ℤ)
    (files : String → Option Bytes) (es : List FileEvent) (s : FileServer) : Prop where
  storageDir : s.recorder.storageDir = recordingsDir
  checked : ∀ x ∈ s.handlers, x.Checked lower envLimit
  accounted : ∀ name, Filepath.Ordinary name → Accounted lower envLimit files es s name

theorem HandlerStep.mem {i : ℕ} {x y z : UploadHandler} (h : HandlerStep lower envLimit s t i x y)
    (hz : z ∈ s.handlers) : ∃ w ∈ t.handlers, w.request = z.request ∧ w.stamp = z.stamp := by
  obtain ⟨j, hj, rfl⟩ := List.mem_iff_getElem.mp hz
  rw [h.handlers]
  by_cases hij : i = j
  · subst hij
    refine ⟨y, List.mem_set hj _, ?_, ?_⟩
    all_goals
      have hx : s.handlers[i] = x :=
        Option.some.inj ((List.getElem?_eq_getElem hj).symm.trans h.found)
      rw [hx]
    · exact h.request
    · exact h.stamp
  · refine ⟨s.handlers[j], ?_, rfl, rfl⟩
    rw [List.mem_iff_getElem]
    exact ⟨j, by simpa using hj, List.getElem_set_ne hij _⟩

/-- What was accounted for goes on being so where a step leaves the file. -/
theorem Accounted.kept {files : String → Option Bytes} {es : List FileEvent} {name : List Char}
    (hs : Accounted lower envLimit files es s name)
    (hsame : t.recorder.disk.files (join [uploadDir, String.ofList name]) =
      s.recorder.disk.files (join [uploadDir, String.ofList name]))
    (hmem : ∀ z ∈ s.handlers, ∃ w ∈ t.handlers, w.request = z.request ∧ w.stamp = z.stamp) :
    Accounted lower envLimit files (es ++ [e]) t name := by
  obtain hbefore | ⟨z, hz, file, ext, hcheck, hext, hsaved⟩ | ⟨ch, now, callsign, hend, hpath⟩ := hs
  · exact .inl (hsame.trans hbefore)
  · obtain ⟨w, hw, hrequest, hstamp⟩ := hmem z hz
    exact .inr (.inl ⟨w, hw, file, ext, hrequest ▸ hcheck, hext, hstamp ▸ hsaved⟩)
  · exact .inr (.inr ⟨ch, now, callsign, List.mem_append_left _ hend, hpath⟩)

theorem guarding_step {files : String → Option Bytes} {es : List FileEvent}
    (hs : s.Guarding lower envLimit files es) (h : fileStep lower envLimit s e = some t) :
    t.Guarding lower envLimit files (es ++ [e]) := by
  obtain ⟨x, -, rfl, hx, -⟩ | ⟨i, x, y, hstep⟩ | hstep := fileStep_cases h
  · refine ⟨hs.storageDir, ?_, fun name hname => (hs.accounted name hname).kept rfl fun z hz => ?_⟩
    · intro z hz
      obtain hz | hz := List.mem_append.mp hz
      · exact hs.checked z hz
      · rw [List.mem_singleton.mp hz]
        exact hx
    · exact ⟨z, List.mem_append_left _ hz, rfl, rfl⟩
  · have hx := hs.checked x (List.mem_of_getElem? hstep.found)
    refine ⟨hstep.storageDir.trans hs.storageDir, ?_, fun name hname => ?_⟩
    · intro z hz
      rw [hstep.handlers] at hz
      obtain hz | rfl := List.mem_or_eq_of_mem_set hz
      · exact hs.checked z hz
      · exact hstep.checked hx
    · obtain hsame | ⟨file, ext, hcheck, hpath⟩ :=
        hstep.wrote hx (join [uploadDir, String.ofList name])
      · exact (hs.accounted name hname).kept hsame fun z => hstep.mem
      · have hext := allowed_of_checkUpload hcheck
        obtain ⟨w, hw, hrequest, hstamp⟩ := hstep.mem (List.mem_of_getElem? hstep.found)
        rw [dstPath_eq] at hpath
        refine .inr (.inl ⟨w, hw, file, ext, hrequest ▸ hcheck, hext, ?_⟩)
        rw [hstamp]
        exact join_ordinary_injective hname (ordinary_savedName x.stamp hext) hpath
  · refine ⟨hstep.storageDir.trans hs.storageDir, ?_, fun name hname => ?_⟩
    · rw [hstep.handlers]
      exact hs.checked
    · obtain hsame | ⟨channelID, now, tx, rfl, -, hpath⟩ := hstep.files hs.storageDir name hname
      · refine (hs.accounted name hname).kept hsame fun z hz => ?_
        rw [hstep.handlers]
        exact ⟨z, hz, rfl, rfl⟩
      · refine .inr (.inr ⟨channelID, now, tx.callsign, ?_, hpath⟩)
        exact List.mem_append_right _ (List.mem_singleton_self _)

theorem guarding_run {r : AudioRecorder} (hdir : r.storageDir = recordingsDir)
    {es : List FileEvent} {s : FileServer}
    (hrun : Run (fileStep lower envLimit) { recorder := r } es s) :
    s.Guarding lower envLimit r.disk.files es := by
  induction es using List.reverseRecOn generalizing s with
  | nil =>
    rw [Run.nil_iff] at hrun
    subst hrun
    exact ⟨hdir, fun _ hx => absurd hx List.not_mem_nil, fun _ _ => .inl rfl⟩
  | append_singleton es e ih =>
    obtain ⟨u, hbefore, hstep⟩ := Run.snoc_iff.mp hrun
    exact guarding_step (ih hbefore) hstep

def photo : UploadedFile := ⟨"Photo.JPG", "image/jpeg", [1, 2, 3]⟩

/-- Two uploads of one photo at one time. -/
def photoUploads : List FileEvent := [
  .upload ⟨.post, .file photo⟩ ⟨5, fun _ => 0xab⟩, .create 0 none, .copy 0 2,
  .upload ⟨.post, .file photo⟩ ⟨5, fun _ => 0xcd⟩, .create 1 none, .copy 1 2, .copy 0 2,
  .respond 0, .copyError 1 "no space left on device"]

def emptyServer : FileServer := { recorder := newAudioRecorder recordingsDir 50 true {} }

def photosUploaded : FileServer :=
  (photoUploads.foldlM (fileStep toLower none) emptyServer).get (by decide +kernel)

/-- No two uploads draw one name, and the clock is past its first 10^8 seconds. -/
def FileEvent.Apart (s : FileServer) : FileEvent → Prop
  | .upload _ stamp => ∀ x ∈ s.handlers, x.stamp ≠ stamp
  | .transmissionEnd _ now => 100000000 ≤ now / 1000000000
  | _ => True

instance (s : FileServer) : DecidablePred (FileEvent.Apart s)
  | .upload _ stamp => inferInstanceAs (Decidable (∀ x ∈ s.handlers, x.stamp ≠ stamp))
  | .transmissionEnd _ now => inferInstanceAs (Decidable (100000000 ≤ now / 1000000000))
  | .create .. | .copy .. | .copyError .. | .respond .. | .transmissionStart .. | .appendAudio .. =>
    isTrue trivial

structure FileServer.Keeping (lower : String → String) (envLimit : Option ℤ) (s : FileServer) :
    Prop where
  storageDir : s.recorder.storageDir = recordingsDir
  checked : ∀ x ∈ s.handlers, x.Checked lower envLimit
  distinct : (s.handlers.map UploadHandler.stamp).Nodup
  kept : ∀ x ∈ s.handlers, x.Kept lower envLimit s.recorder.disk.files

/-- A step of one handler leaves the files of the others alone. -/
theorem HandlerStep.keeping {i : ℕ} {x y : UploadHandler} (hs : s.Keeping lower envLimit)
    (hstep : HandlerStep lower envLimit s t i x y) : t.Keeping lower envLimit := by
  have hx : x ∈ s.handlers := List.mem_of_getElem? hstep.found
  have hi : i < s.handlers.length := (List.getElem?_eq_some_iff.mp hstep.found).1
  have hxi : s.handlers[i] = x := (List.getElem?_eq_some_iff.mp hstep.found).2
  have hcheckedx := hs.checked x hx
  have hstamps : t.handlers.map UploadHandler.stamp = s.handlers.map UploadHandler.stamp := by
    have himap : i < (s.handlers.map UploadHandler.stamp).length := by simpa using hi
    have hsame := List.set_getElem_self himap
    rwa [List.getElem_map, hxi, ← hstep.stamp, ← List.map_set, ← hstep.handlers] at hsame
  refine ⟨hstep.storageDir.trans hs.storageDir, ?_, hstamps ▸ hs.distinct, ?_⟩
  · intro z hz
    rw [hstep.handlers] at hz
    obtain hz | rfl := List.mem_or_eq_of_mem_set hz
    · exact hs.checked z hz
    · exact hstep.checked hcheckedx
  · intro z hz
    rw [hstep.handlers] at hz
    obtain ⟨j, hj, rfl⟩ := List.mem_iff_getElem.mp hz
    rw [List.length_set] at hj
    by_cases hij : i = j
    · subst hij
      rw [List.getElem_set_self]
      exact hstep.kept hcheckedx (hs.kept x hx)
    · have hmem : s.handlers[j] ∈ s.handlers := List.getElem_mem hj
      rw [List.getElem_set_ne hij]
      refine (hs.kept _ hmem).congr (hs.checked _ hmem) fun ext hext => ?_
      obtain hsame | ⟨file, ext', hcheck, hpath⟩ := hstep.wrote hcheckedx (dstPath _ ext)
      · exact hsame
      · have hstamp := dstPath_injective hext (allowed_of_checkUpload hcheck) hpath
        have himap : i < (s.handlers.map UploadHandler.stamp).length := by simpa using hi
        have hjmap : j < (s.handlers.map UploadHandler.stamp).length := by simpa using hj
        have hstamps : (s.handlers.map UploadHandler.stamp)[i] =
            (s.handlers.map UploadHandler.stamp)[j] := by simp [hxi, hstamp]
        exact absurd (hs.distinct.getElem_inj_iff.mp hstamps) hij

theorem keeping_step (hs : s.Keeping lower envLimit) (he : e.Apart s)
    (h : fileStep lower envLimit s e = some t) : t.Keeping lower envLimit := by
  obtain ⟨x, rfl, rfl, hchecked, hkept⟩ | ⟨i, x, y, hstep⟩ | hstep := fileStep_cases h
  · have hnew {P : UploadHandler → Prop} (hold : ∀ z ∈ s.handlers, P z) (hx : P x) :
        ∀ z ∈ s.handlers ++ [x], P z := by
      intro z hz
      obtain hz | hz := List.mem_append.mp hz
      · exact hold z hz
      · exact List.mem_singleton.mp hz ▸ hx
    refine ⟨hs.storageDir, hnew hs.checked hchecked, ?_, hnew hs.kept hkept⟩
    rw [List.map_append, List.nodup_append]
    refine ⟨hs.distinct, by simp, fun a ha b hb => ?_⟩
    obtain ⟨z, hz, rfl⟩ := List.mem_map.mp ha
    obtain rfl : b = x.stamp := by simpa using hb
    exact he z hz
  · exact hstep.keeping hs
  · refine ⟨hstep.storageDir.trans hs.storageDir, ?_, ?_, ?_⟩
    · rw [hstep.handlers]
      exact hs.checked
    · rw [hstep.handlers]
      exact hs.distinct
    · rw [hstep.handlers]
      intro z hz
      refine (hs.kept z hz).congr (hs.checked z hz) fun ext hext => ?_
      rw [dstPath_eq]
      have hordinary := ordinary_savedName z.stamp hext
      obtain hsame | ⟨channelID, now, tx, rfl, -, hpath⟩ := hstep.files hs.storageDir _ hordinary
      · exact hsame
      · obtain ⟨front, hfront⟩ := filePath_upload hordinary hpath
        exact absurd hfront (savedName_ne_nameTail hext he)

/-- Whatever is uploaded and recorded besides, in any interleaving, a finished upload is served
at the URL of its answer byte for byte, from then on. -/
theorem upload_served {r : AudioRecorder} {es : List FileEvent}
    (hdir : r.storageDir = recordingsDir)
    (hrun : Run (fileStep lower envLimit) { recorder := r } es s)
    (hapart : Guarded (fileStep lower envLimit) (fun s e => e.Apart s) { recorder := r } es)
    {x : UploadHandler} {url name type : String} {size : ℕ} (hx : x ∈ s.handlers)
    (hanswered : x.phase = .answered (.uploaded url name size type)) :
    ∃ file ext, checkUpload lower envLimit x.request = .ok (file, ext) ∧
      name = file.filename ∧ size = file.content.length ∧ type = file.contentType ∧
      serveUploads s.recorder.disk.files url = some file.content ∧
      DirectlyInside uploadDir (dstPath x.stamp ext) ∧
      ∀ x' ∈ s.handlers, ∀ name' size' type',
        x'.phase = .answered (.uploaded url name' size' type') → x' = x := by
  have hs : s.Keeping lower envLimit := hrun.invariant_of_guarded
    (fun _ _ _ hs he h => keeping_step hs he h) hapart
    ⟨hdir, fun _ hx => absurd hx List.not_mem_nil, List.nodup_nil,
      fun _ hx => absurd hx List.not_mem_nil⟩
  have answered {x : UploadHandler} (hx : x ∈ s.handlers) {name type : String} {size : ℕ}
      (hanswered : x.phase = .answered (.uploaded url name size type)) :
      ∃ file ext, checkUpload lower envLimit x.request = .ok (file, ext) ∧
        url = "/uploads/" ++ savedName x.stamp ext ∧ name = file.filename ∧
        size = file.content.length ∧ type = file.contentType ∧
        s.recorder.disk.files (dstPath x.stamp ext) = some file.content := by
    have hkept := hs.kept x hx
    unfold UploadHandler.Kept at hkept
    rw [hanswered] at hkept
    exact hkept url name size type rfl
  obtain ⟨file, ext, hcheck, hurl, hname, hsize, htype, hfile⟩ := answered hx hanswered
  have hext := allowed_of_checkUpload hcheck
  refine ⟨file, ext, hcheck, hname, hsize, htype, ?_,
    ⟨savedName x.stamp ext, ordinary_savedName x.stamp hext, rfl⟩, ?_⟩
  · rw [hurl, serveUploads_savedName _ _ hext]
    exact hfile
  · intro x' hx' name' size' type' hanswered'
    obtain ⟨-, ext', -, hurl', -⟩ := answered hx' hanswered'
    rw [hurl] at hurl'
    have hstamp := savedName_injective ((String.append_right_inj _).mp hurl')
    exact List.inj_on_of_nodup_map hs.distinct hx' hx hstamp.symm

/-- After the answer to the first photo a transmission is recorded and another photo uploaded. -/
def photosAndTalk : List FileEvent :=
  photoUploads ++ [
    .transmissionStart 1 (newClient "id" "ALPHA") 1700000000000000000,
    .appendAudio 1 (List.replicate minRecordingBytes 0),
    .upload ⟨.post, .file photo⟩ ⟨6, fun _ => 0xab⟩, .create 2 none,
    .transmissionEnd 1 1700000001000000000, .copy 2 3, .respond 2]

def photosAndTalkEnded : FileServer :=
  (photosAndTalk.foldlM (fileStep toLower none) emptyServer).get (by decide +kernel)

theorem upload_served_photo : ∃ file ext,
    checkUpload toLower none ⟨.post, .file photo⟩ = .ok (file, ext) ∧
      photosAndTalkEnded.recorder.recordings.length = 1 ∧
      photosAndTalkEnded.handlers.length = 3 ∧
      serveUploads photosAndTalkEnded.recorder.disk.files "/uploads/5_abababab.jpg" =
        some file.content :=
  have ⟨file, ext, hcheck, _, _, _, hserved, _⟩ :=
    upload_served (r := emptyServer.recorder) rfl (run_get _ _ photosAndTalk (by decide +kernel))
      (by decide +kernel)
      (x := ⟨⟨.post, .file photo⟩, ⟨5, fun _ => 0xab⟩,
        .answered (.uploaded "/uploads/5_abababab.jpg" "Photo.JPG" 3 "image/jpeg")⟩)
      (by decide +kernel) rfl
  ⟨file, ext, hcheck, by decide +kernel, by decide +kernel, hserved⟩

end Runs

end TwoWayRadio

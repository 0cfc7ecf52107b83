import TwoWayRadio.Client
import TwoWayRadio.Filepath

/-! Server-side recording of transmissions. Every function on the recorder is one critical
section of its mutex. -/
namespace TwoWayRadio

structure TransmissionBuffer where
  channelID : ChannelID
  speakerID : String
  callsign : String
  role : String
  startTime : ℤ
  buffer : Bytes := []
deriving DecidableEq

/-- The files the recorder can see, and whether writing to them succeeds. -/
structure Disk where
  files : String → Option Bytes := fun _ => none
  writable : Bool := true

structure AudioRecorder where
  storageDir : String
  activeTX : ChannelID → Option TransmissionBuffer
  recordings : List VoiceRecording
  maxHistory : ℕ
  enabled : Bool
  disk : Disk

/-- `maxHistory` and `enabled` are what the environment variables say. -/
def newAudioRecorder (storageDir : String) (maxHistory : ℕ) (enabled : Bool) (disk : Disk) :
    AudioRecorder where
  storageDir := storageDir
  activeTX := fun _ => none
  recordings := []
  maxHistory := maxHistory
  enabled := enabled
  disk := disk

def maxBufferBytes : ℕ := 16000 * 2 * 60

/-- Transmissions below 100 ms of audio are dropped as clicks. -/
def minRecordingBytes : ℕ := 3200

def littleEndian16 (n : UInt16) : Bytes := [n.toUInt8, (n >>> 8).toUInt8]

def littleEndian32 (n : UInt32) : Bytes :=
  [n.toUInt8, (n >>> 8).toUInt8, (n >>> 16).toUInt8, (n >>> 24).toUInt8]

def encodeWAV (sampleRate : UInt32) (channels bitsPerSample : UInt16) (pcm : Bytes) : Bytes :=
  let dataSize : UInt32 := UInt32.ofNat pcm.length
  let chunkSize := 36 + dataSize
  let byteRate := sampleRate * channels.toUInt32 * bitsPerSample.toUInt32 / 8
  let blockAlign := channels * bitsPerSample / 8
  [0x52, 0x49, 0x46, 0x46] ++ littleEndian32 chunkSize ++ [0x57, 0x41, 0x56, 0x45] ++
    [0x66, 0x6d, 0x74, 0x20] ++ littleEndian32 16 ++ littleEndian16 1 ++ littleEndian16 channels ++
    littleEndian32 sampleRate ++ littleEndian32 byteRate ++ littleEndian16 blockAlign ++
    littleEndian16 bitsPerSample ++ [0x64, 0x61, 0x74, 0x61] ++ littleEndian32 dataSize ++ pcm

theorem length_encodeWAV (sampleRate : UInt32) (channels bitsPerSample : UInt16) (pcm : Bytes) :
    (encodeWAV sampleRate channels bitsPerSample pcm).length = 44 + pcm.length := by
  simp only [encodeWAV, littleEndian16, littleEndian32, List.length_append, List.length_cons,
    List.length_nil]

/-- `%02d`. -/
def padTwo (n : ℤ) : String :=
  let digits := toString n
  if digits.length < 2 then "0" ++ digits else digits

def recordingName (channelID : ChannelID) (callsign : String) (now : ℤ) : String :=
  "CH" ++ padTwo channelID ++ "_" ++ callsign ++ "_" ++ toString (now / 1000000000) ++ ".wav"

namespace AudioRecorder

def onTransmissionStart (channelID : ChannelID) (speaker : Client) (now : ℤ) (r : AudioRecorder) :
    AudioRecorder :=
  if !r.enabled then r
  else
    let tx : TransmissionBuffer := {
      channelID := channelID, speakerID := speaker.id, callsign := speaker.callsign,
      role := speaker.role, startTime := now }
    { r with activeTX := Function.update r.activeTX channelID (some tx) }

def appendAudio (channelID : ChannelID) (payload : Bytes) (r : AudioRecorder) : AudioRecorder :=
  if !r.enabled then r
  else
    match r.activeTX channelID with
    | none => r
    | some tx =>
      if maxBufferBytes < tx.buffer.length + payload.length then r
      else
        let tx := { tx with buffer := tx.buffer ++ payload }
        { r with activeTX := Function.update r.activeTX channelID (some tx) }

/-- Removing the files of the recordings that fall out of the list. -/
def removeFiles (storageDir : String) (evicted : List VoiceRecording) (disk : Disk) : Disk :=
  evicted.foldl (fun d e => { d with
    files := Function.update d.files (Filepath.join [storageDir, Filepath.base e.fileURL]) none })
    disk

/-- The metadata of the recording that ends `tx` at `now`. -/
def recordingOf (tx : TransmissionBuffer) (channelID : ChannelID) (now : ℤ) : VoiceRecording where
  id := "tx_" ++ toString now ++ "_" ++ toString channelID
  channelID := channelID
  callsign := tx.callsign
  role := tx.role
  timestamp := now / 1000000
  durationTenths := tx.buffer.length / 3200
  fileURL := "/recordings/" ++ recordingName channelID tx.callsign now
  sizeBytes := (encodeWAV 16000 1 16 tx.buffer).length

def onTransmissionEnd (channelID : ChannelID) (now : ℤ) (r : AudioRecorder) :
    Option VoiceRecording × AudioRecorder :=
  if !r.enabled then (none, r)
  else
    match r.activeTX channelID with
    | none => (none, r)
    | some tx =>
      let r := { r with activeTX := Function.update r.activeTX channelID none }
      if tx.buffer.length < minRecordingBytes then (none, r)
      else if !r.disk.writable then (none, r)
      else
        let path := Filepath.join [r.storageDir, recordingName channelID tx.callsign now]
        let rec_ := recordingOf tx channelID now
        let disk := { r.disk with
          files := Function.update r.disk.files path (some (encodeWAV 16000 1 16 tx.buffer)) }
        let recordings := r.recordings ++ [rec_]
        let excess := recordings.length - r.maxHistory
        (some rec_, { r with
          recordings := recordings.drop excess,
          disk := removeFiles r.storageDir (recordings.take excess) disk })

def getRecordings (channelID : ChannelID) (r : AudioRecorder) : List VoiceRecording :=
  if channelID ≤ 0 then r.recordings
  else r.recordings.filter (fun rec_ => rec_.channelID == channelID)

end AudioRecorder

end TwoWayRadio

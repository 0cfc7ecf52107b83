import Mathlib.Data.Nat.Digits.Lemmas
import Mathlib.Tactic.Linarith

/-! RIFF files as a reader sees them that goes by the sizes of their chunks, and the WAVE form. -/
namespace Riff

/-- The number whose base-256 digits the bytes are, least significant first. -/
def readLE (bytes : List UInt8) : ℕ := Nat.ofDigits 256 (bytes.map UInt8.toNat)

/-- The field of `width` bytes at an offset. -/
def field (offset width : ℕ) (bytes : List UInt8) : ℕ := readLE ((bytes.drop offset).take width)

/-- Four bytes say what a chunk is. -/
structure Chunk where
  id : List UInt8
  body : List UInt8
deriving DecidableEq

/-- The first chunk and what comes after it. A body of odd length is padded with one byte, which
files may lack at their end. -/
def chunk (bytes : List UInt8) : Option (Chunk × List UInt8) :=
  let size := field 4 4 bytes
  if bytes.length < 8 + size then none
  else some (⟨bytes.take 4, (bytes.drop 8).take size⟩, (bytes.drop 8).drop (size + size % 2))

theorem chunk_length {bytes rest : List UInt8} {c : Chunk} (h : chunk bytes = some (c, rest)) :
    rest.length < bytes.length := by
  simp only [chunk] at h
  split_ifs at h with hshort
  obtain ⟨-, rfl⟩ := Prod.mk.inj (Option.some.inj h)
  rw [List.length_drop, List.length_drop]
  omega

/-- The chunks one after the other, to the end of the bytes. -/
def chunks (bytes : List UInt8) : Option (List Chunk) :=
  if bytes = [] then some []
  else
    match _h : chunk bytes with
    | none => none
    | some (c, rest) => (chunks rest).map (c :: ·)
termination_by bytes.length
decreasing_by exact chunk_length _h

section Fields

variable {a b body rest : List UInt8} {id size : List UInt8} {c : Chunk} {cs : List Chunk}

theorem readLE_two (x y : UInt8) : readLE [x, y] = x.toNat + 256 * y.toNat := by
  simp [readLE, Nat.ofDigits_cons]

theorem readLE_four (x y z w : UInt8) :
    readLE [x, y, z, w] = x.toNat + 256 * (y.toNat + 256 * (z.toNat + 256 * w.toNat)) := by
  simp [readLE, Nat.ofDigits_cons]

/-- The field behind `a`. -/
theorem field_append {offset width : ℕ} (ha : a.length = offset) (hb : b.length = width) :
    field offset width (a ++ (b ++ rest)) = readLE b := by
  rw [field, ← ha, List.drop_left, ← hb, List.take_left]

/-- What was written as a chunk is read as that chunk. -/
theorem chunk_append (hid : id.length = 4) (hwidth : size.length = 4)
    (hsize : readLE size = body.length) :
    chunk (id ++ (size ++ (body ++ rest))) = some (⟨id, body⟩, rest.drop (body.length % 2)) := by
  have hfield : field 4 4 (id ++ (size ++ (body ++ rest))) = body.length :=
    (field_append hid hwidth).trans hsize
  have hbody : (id ++ (size ++ (body ++ rest))).drop 8 = body ++ rest := by
    rw [← List.append_assoc]
    exact List.drop_left' (by rw [List.length_append, hid, hwidth])
  have hlength : 8 + body.length ≤ (id ++ (size ++ (body ++ rest))).length := by
    simp only [List.length_append]
    omega
  simp only [chunk, hfield, hbody, if_neg (Nat.not_lt.mpr hlength), List.take_left,
    List.take_left' hid]
  rw [← List.drop_drop, List.drop_left]

/-- A chunk that nothing follows. -/
theorem chunk_whole (hid : id.length = 4) (hwidth : size.length = 4)
    (hsize : readLE size = body.length) :
    chunk (id ++ (size ++ body)) = some (⟨id, body⟩, []) := by
  have h : chunk (id ++ (size ++ (body ++ []))) = _ := chunk_append hid hwidth hsize
  rwa [List.append_nil, List.drop_nil] at h

theorem chunks_nil : chunks [] = some [] := by rw [chunks, if_pos rfl]

theorem chunks_cons (hc : chunk a = some (c, rest)) (hcs : chunks rest = some cs) :
    chunks a = some (c :: cs) := by
  have hne : a ≠ [] := by
    rintro rfl
    cases hc
  rw [chunks, if_neg hne]
  split
  · rename_i hnone
    rw [hnone] at hc
    cases hc
  · rename_i hsome
    rw [hsome] at hc
    obtain ⟨rfl, rfl⟩ := Prod.mk.inj (Option.some.inj hc)
    rw [hcs, Option.map_some]

end Fields

/-- The parameters of a WAVE file and its samples. -/
structure Wave where
  audioFormat : ℕ
  channels : ℕ
  sampleRate : ℕ
  byteRate : ℕ
  blockAlign : ℕ
  bitsPerSample : ℕ
  data : List UInt8
deriving DecidableEq

/-- `RIFF`, `WAVE`, `fmt ` and `data`. -/
def riffID : List UInt8 := [0x52, 0x49, 0x46, 0x46]

def waveID : List UInt8 := [0x57, 0x41, 0x56, 0x45]

def fmtID : List UInt8 := [0x66, 0x6d, 0x74, 0x20]

def dataID : List UInt8 := [0x64, 0x61, 0x74, 0x61]

/-- The parameters are in the chunk `fmt ` and the samples in the chunk `data`, wherever they
stand in the one RIFF chunk that is the file. -/
def readWave (bytes : List UInt8) : Option Wave := do
  let (riff, rest) ← chunk bytes
  guard (riff.id = riffID ∧ riff.body.take 4 = waveID ∧ rest = [])
  let cs ← chunks (riff.body.drop 4)
  let fmt ← cs.find? fun c => c.id = fmtID
  let data ← cs.find? fun c => c.id = dataID
  guard (16 ≤ fmt.body.length)
  some {
    audioFormat := field 0 2 fmt.body, channels := field 2 2 fmt.body,
    sampleRate := field 4 4 fmt.body, byteRate := field 8 4 fmt.body,
    blockAlign := field 12 2 fmt.body, bitsPerSample := field 14 2 fmt.body,
    data := data.body }

/-- A file of the two chunks, parameters first. -/
theorem readWave_append {size fmtSize fmt dataSize data : List UInt8}
    (hwidth : size.length = 4) (hsize : readLE size = 20 + fmt.length + data.length)
    (hfmtWidth : fmtSize.length = 4) (hfmtSize : readLE fmtSize = fmt.length)
    (hfmt : 16 ≤ fmt.length) (heven : fmt.length % 2 = 0)
    (hdataWidth : dataSize.length = 4) (hdataSize : readLE dataSize = data.length) :
    readWave (riffID ++ (size ++ (waveID ++ (fmtID ++ (fmtSize ++ (fmt ++
      (dataID ++ (dataSize ++ data)))))))) = some {
        audioFormat := field 0 2 fmt, channels := field 2 2 fmt, sampleRate := field 4 4 fmt,
        byteRate := field 8 4 fmt, blockAlign := field 12 2 fmt, bitsPerSample := field 14 2 fmt,
        data := data } := by
  have hdata : chunk (dataID ++ (dataSize ++ data)) = some (⟨dataID, data⟩, []) :=
    chunk_whole rfl hdataWidth hdataSize
  have hfirst : chunk (fmtID ++ (fmtSize ++ (fmt ++ (dataID ++ (dataSize ++ data))))) =
      some (⟨fmtID, fmt⟩, dataID ++ (dataSize ++ data)) := by
    rw [chunk_append rfl hfmtWidth hfmtSize, heven, List.drop_zero]
  have hchunks : chunks (fmtID ++ (fmtSize ++ (fmt ++ (dataID ++ (dataSize ++ data))))) =
      some [⟨fmtID, fmt⟩, ⟨dataID, data⟩] :=
    chunks_cons hfirst (chunks_cons hdata chunks_nil)
  have hriff : chunk (riffID ++ (size ++ (waveID ++ (fmtID ++ (fmtSize ++ (fmt ++
      (dataID ++ (dataSize ++ data)))))))) = some (⟨riffID, waveID ++ (fmtID ++ (fmtSize ++ (fmt ++
        (dataID ++ (dataSize ++ data)))))⟩, []) := by
    have hlength : readLE size = (waveID ++ (fmtID ++ (fmtSize ++ (fmt ++
        (dataID ++ (dataSize ++ data)))))).length := by
      simp only [hsize, List.length_append, hfmtWidth, hdataWidth, waveID, fmtID, dataID,
        List.length_cons, List.length_nil]
      omega
    exact chunk_whole rfl hwidth hlength
  have hbody (l : List UInt8) : (waveID ++ l).take 4 = waveID ∧ (waveID ++ l).drop 4 = l :=
    ⟨rfl, rfl⟩
  have hdistinct : fmtID ≠ dataID := by decide
  simp [readWave, hriff, hbody, hchunks, hdistinct, hfmt, guard]

end Riff

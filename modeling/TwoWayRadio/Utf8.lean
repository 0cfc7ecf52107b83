import Mathlib.Data.List.Basic

/-! UTF-8 texts as lists of bytes: what a reader makes of bytes that need not be well formed, and
what a cut at a byte offset leaves of a text. -/
namespace Utf8

def encode (text : List Char) : List UInt8 := text.flatMap String.utf8EncodeChar

def IsValid (bytes : List UInt8) : Prop := ∃ text, bytes = encode text

/-- The first `skip` bytes belong to a character that has been read. A byte that does not begin
a character is read as U+FFFD, on its own. -/
def readFrom : ℕ → List UInt8 → List Char
  | _, [] => []
  | skip + 1, _ :: bytes => readFrom skip bytes
  | 0, b :: bytes =>
    match (b :: bytes).toByteArray.utf8DecodeChar? 0 with
    | some c => c :: readFrom (c.utf8Size - 1) bytes
    | none => '\ufffd' :: readFrom 0 bytes

def read (bytes : List UInt8) : List Char := readFrom 0 bytes

/-- A character of the text starts at the byte offset, or the text ends there or before. -/
def Boundary (n : ℕ) (text : List Char) : Prop :=
  ∀ b, (encode text)[n]? = some b → b.IsUTF8FirstByte

instance (n : ℕ) (text : List Char) : Decidable (Boundary n text) :=
  inferInstanceAs (Decidable (∀ b ∈ (encode text)[n]?, b.IsUTF8FirstByte))

/-- The bytes begin a character and do not finish it. -/
def Torn (bytes : List UInt8) : Prop :=
  ∃ c, bytes <+: String.utf8EncodeChar c ∧ bytes.length < c.utf8Size

theorem get!_eq_getElem {bytes : ByteArray} {i : ℕ} (hi : i < bytes.data.toList.length) :
    bytes.get! i = bytes.data.toList[i] := by
  cases bytes with
  | mk data =>
    have hi' : i < data.size := hi
    change data[i]! = data.toList[i]
    rw [getElem!_pos data i hi', Array.getElem_toList]

theorem toList_loop (bytes : ByteArray) (i : ℕ) (acc : List UInt8) :
    ByteArray.toList.loop bytes i acc = acc.reverse ++ bytes.data.toList.drop i := by
  induction hn : bytes.size - i generalizing i acc with
  | zero =>
    have hend : bytes.data.toList.length ≤ i := by
      rw [Array.length_toList]
      exact Nat.le_of_sub_eq_zero hn
    unfold ByteArray.toList.loop
    rw [if_neg (by omega), List.drop_eq_nil_of_le hend, List.append_nil]
  | succ n ih =>
    have hi : i < bytes.data.toList.length := by
      rw [Array.length_toList]
      change i < bytes.size
      omega
    unfold ByteArray.toList.loop
    rw [if_pos (by omega), ih _ _ (by omega), List.drop_eq_getElem_cons hi, get!_eq_getElem hi,
      List.reverse_cons, List.append_assoc, List.singleton_append]

theorem toList_toUTF8 (s : String) : s.toUTF8.toList = encode s.toList := by
  have hbytes : s.toUTF8 = (encode s.toList).toByteArray := s.utf8Encode_toList.symm
  unfold ByteArray.toList
  rw [toList_loop, hbytes, List.toList_data_toByteArray]
  rfl

section Reading

variable {c : Char} {bytes part : List UInt8} {text : List Char}

@[simp] theorem encode_nil : encode [] = [] := rfl

@[simp] theorem encode_cons (c : Char) (text : List Char) :
    encode (c :: text) = String.utf8EncodeChar c ++ encode text := rfl

theorem encode_append (text rest : List Char) :
    encode (text ++ rest) = encode text ++ encode rest :=
  List.flatMap_append

theorem encode_eq_nil : encode text = [] ↔ text = [] := by
  cases text with
  | nil => exact iff_of_true rfl rfl
  | cons c text =>
    refine iff_of_false (fun h => ?_) (List.cons_ne_nil c text)
    have hlength := congrArg List.length (List.append_eq_nil_iff.mp h).1
    rw [String.length_utf8EncodeChar] at hlength
    exact absurd hlength.symm (Nat.ne_of_lt c.utf8Size_pos)

theorem readFrom_length (bytes : List UInt8) (rest : List UInt8) :
    readFrom bytes.length (bytes ++ rest) = read rest := by
  induction bytes with
  | nil => rfl
  | cons b bytes ih => exact ih

/-- A whole character is read as itself. -/
theorem read_char (c : Char) (rest : List UInt8) :
    read (String.utf8EncodeChar c ++ rest) = c :: read rest := by
  have hdecode : ((String.utf8EncodeChar c ++ rest).toByteArray).utf8DecodeChar? 0 = some c := by
    rw [List.toByteArray_append]
    exact ByteArray.utf8DecodeChar?_utf8EncodeChar_append
  have hlength := String.length_utf8EncodeChar c
  cases hc : String.utf8EncodeChar c with
  | nil =>
    rw [hc] at hlength
    exact absurd hlength (Nat.ne_of_lt c.utf8Size_pos)
  | cons b tail =>
    rw [hc] at hdecode hlength
    have htail : c.utf8Size - 1 = tail.length := by
      rw [← hlength]
      rfl
    change (match (b :: (tail ++ rest)).toByteArray.utf8DecodeChar? 0 with
      | some c => c :: readFrom (c.utf8Size - 1) (tail ++ rest)
      | none => '\ufffd' :: readFrom 0 (tail ++ rest)) = _
    rw [List.cons_append] at hdecode
    rw [hdecode]
    change c :: readFrom (c.utf8Size - 1) (tail ++ rest) = _
    rw [htail, readFrom_length]

theorem read_text (text : List Char) (rest : List UInt8) :
    read (encode text ++ rest) = text ++ read rest := by
  induction text with
  | nil => rfl
  | cons c text ih => rw [encode_cons, List.append_assoc, read_char, ih, List.cons_append]

theorem read_encode (text : List Char) : read (encode text) = text := by
  have h := read_text text []
  rwa [List.append_nil, show read [] = [] from rfl, List.append_nil] at h

theorem read_cons_of_none {b : UInt8}
    (h : (b :: bytes).toByteArray.utf8DecodeChar? 0 = none) :
    read (b :: bytes) = '\ufffd' :: read bytes := by
  change (match (b :: bytes).toByteArray.utf8DecodeChar? 0 with
    | some c => c :: readFrom (c.utf8Size - 1) bytes
    | none => '\ufffd' :: readFrom 0 bytes) = _
  rw [h]
  rfl

/-- Bytes that begin no character are each read as U+FFFD. -/
theorem read_of_loose (h : ∀ b ∈ bytes, ¬ b.IsUTF8FirstByte) :
    read bytes = List.replicate bytes.length '\ufffd' := by
  induction bytes with
  | nil => rfl
  | cons b bytes ih =>
    have hnone : (b :: bytes).toByteArray.utf8DecodeChar? 0 = none := by
      rw [← Option.not_isSome_iff_eq_none]
      intro hsome
      have hfirst := ByteArray.isUTF8FirstByte_of_isSome_utf8DecodeChar? hsome
      rw [List.getElem_toByteArray] at hfirst
      exact h b List.mem_cons_self hfirst
    rw [read_cons_of_none hnone, ih fun a ha => h a (List.mem_cons_of_mem b ha)]
    rfl

/-- No byte of a character after its first begins one. -/
theorem loose_tail {b : UInt8} {tail : List UInt8} (h : String.utf8EncodeChar c = b :: tail) :
    ∀ a ∈ tail, ¬ a.IsUTF8FirstByte := by
  intro a ha
  obtain ⟨i, hi, rfl⟩ := List.getElem_of_mem ha
  have hlt : i + 1 < (String.utf8EncodeChar c).length := by
    rw [h]
    exact Nat.succ_lt_succ hi
  have hget : (String.utf8EncodeChar c)[i + 1] = tail[i] := by
    simp only [h, List.getElem_cons_succ]
  rw [← hget, UInt8.isUTF8FirstByte_getElem_utf8EncodeChar]
  exact Nat.succ_ne_zero i

/-- What is left of a character after a cut is read as one U+FFFD a byte. -/
theorem read_of_torn (h : Torn part) : read part = List.replicate part.length '\ufffd' := by
  obtain ⟨c, ⟨rest, hrest⟩, hshort⟩ := h
  cases part with
  | nil => rfl
  | cons b tail =>
    have hnone : (b :: tail).toByteArray.utf8DecodeChar? 0 = none := by
      rw [Option.eq_none_iff_forall_ne_some]
      intro d hd
      have hsize := ByteArray.le_size_of_utf8DecodeChar?_eq_some hd
      have hwhole := ByteArray.utf8DecodeChar?_append_eq_some hd rest.toByteArray
      rw [← List.toByteArray_append, hrest] at hwhole
      have hchar := ByteArray.utf8DecodeChar?_utf8EncodeChar_append (b := .empty) (c := c)
      rw [ByteArray.append_empty, hwhole] at hchar
      rw [Option.some.inj hchar, List.size_toByteArray] at hsize
      omega
    have hloose : ∀ a ∈ tail, ¬ a.IsUTF8FirstByte := fun a ha =>
      loose_tail hrest.symm a (List.mem_append_left rest ha)
    rw [read_cons_of_none hnone, read_of_loose hloose]
    rfl

theorem read_text_torn (text : List Char) (h : Torn part) :
    read (encode text ++ part) = text ++ List.replicate part.length '\ufffd' := by
  rw [read_text, read_of_torn h]

/-- A text with part of a character behind it is no text: what it is read as takes three bytes
for each byte of that part. -/
theorem nil_of_isValid (h : Torn part) (hvalid : IsValid (encode text ++ part)) : part = [] := by
  obtain ⟨whole, hwhole⟩ := hvalid
  have hread := read_text_torn text h
  rw [hwhole, read_encode] at hread
  rw [hread, encode_append, List.append_cancel_left_eq] at hwhole
  have hlength := congrArg List.length hwhole
  have hthree : (encode (List.replicate part.length '\ufffd')).length = part.length * 3 := by
    generalize part.length = k
    induction k with
    | zero => rfl
    | succ k ih =>
      rw [List.replicate_succ, encode_cons, List.length_append, ih, Nat.succ_mul, Nat.add_comm]
      rfl
  rw [hthree] at hlength
  exact List.eq_nil_of_length_eq_zero (by omega)

/-- A cut at a byte offset leaves a prefix of the text and part of a character, of which nothing
is left exactly when a character starts at the offset. -/
theorem take_encode (n : ℕ) (text : List Char) :
    ∃ kept part, kept <+: text ∧ Torn part ∧ (encode text).take n = encode kept ++ part ∧
      (part = [] ↔ Boundary n text) := by
  induction text generalizing n with
  | nil =>
    refine ⟨[], [], List.prefix_rfl, ⟨'a', List.nil_prefix, by decide⟩, List.take_nil, ?_⟩
    exact iff_of_true rfl fun b hb => by cases hb
  | cons c text ih =>
    rcases Nat.lt_or_ge n c.utf8Size with hn | hn
    · have hn' : n < (String.utf8EncodeChar c).length := by rwa [String.length_utf8EncodeChar]
      have hget : (encode (c :: text))[n]? = some (String.utf8EncodeChar c)[n] := by
        rw [encode_cons, List.getElem?_append_left hn', List.getElem?_eq_getElem hn']
      refine ⟨[], (String.utf8EncodeChar c).take n, List.nil_prefix, ⟨c, List.take_prefix _ _, ?_⟩,
        ?_, ?_⟩
      · rw [List.length_take_of_le (Nat.le_of_lt hn')]
        exact hn
      · rw [encode_cons, List.take_append_of_le_length (Nat.le_of_lt hn')]
        rfl
      · have hbegins : Boundary n (c :: text) ↔ n = 0 := by
          rw [← @UInt8.isUTF8FirstByte_getElem_utf8EncodeChar c n hn']
          refine ⟨fun h => h _ hget, fun h b hb => ?_⟩
          rw [hget] at hb
          rwa [← Option.some.inj hb]
        rw [hbegins, List.take_eq_nil_iff]
        refine or_iff_left fun hnil => ?_
        rw [hnil] at hn'
        cases hn'
    · have hn' : (String.utf8EncodeChar c).length ≤ n := by rwa [String.length_utf8EncodeChar]
      obtain ⟨kept, part, hkept, hpart, htake, hboundary⟩ := ih (n - c.utf8Size)
      refine ⟨c :: kept, part, List.prefix_cons_inj c |>.mpr hkept, hpart, ?_, ?_⟩
      · rw [encode_cons, List.take_append, List.take_of_length_le hn',
          String.length_utf8EncodeChar, htake, encode_cons, List.append_assoc]
      · rw [hboundary, Boundary, Boundary, encode_cons, List.getElem?_append_right hn',
          String.length_utf8EncodeChar]

end Reading

end Utf8

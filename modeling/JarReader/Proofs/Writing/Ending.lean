import JarReader.Proofs.EndRecord.Decode
import JarReader.Proofs.EndRecord.Wide
import JarReader.Proofs.Writing.Records

namespace JarReader.Zip

open Bytes View EndRecord

lemma EndRecord.fitsAt_encode (before comment : ByteArray) (fields : EndFields)
    (h : fields.commentLength.toNat = comment.size) :
    fitsAt (before ++ (fields.encode.toByteArray ++ comment)) before.size = true := by
  have hf := fitsAt_append before (fields.encode.toByteArray ++ comment) 0
  have h16 : u16At (fields.encode.toByteArray ++ comment) 20 = fields.commentLength := by
    simp [EndFields.encode, ByteArray.append_assoc]
  have h32 : u32At (fields.encode.toByteArray ++ comment) 0 = EndFields.signature := by
    simp [EndFields.encode, ByteArray.append_assoc]
  rw [Nat.add_zero] at hf
  rw [hf, fitsAt, h16, h32, h, ByteArray.size_append, EndFields.size_encode]
  simp

lemma EndRecord.zip64Record?_encode (d : Disk) (before rest : ByteArray) (wide : Zip64Record)
    (locator : Zip64Locator) :
    zip64Record? d (.ofBytes (before ++
        (wide.encode.toByteArray ++ (locator.encode.toByteArray ++ rest))))
      (before.size + Zip64Record.size + Zip64Locator.size) = .ok (some (wide, before.size)) := by
  have hw : wide.encode.toByteArray.size = Zip64Record.size := by
    rw [List.size_toByteArray, Zip64Record.length_encode]
  have hl : locator.encode.toByteArray.size = Zip64Locator.size := by
    rw [List.size_toByteArray, Zip64Locator.length_encode]
  rw [zip64Record?_adjacent_iff (whole_ofBytes d _)
    (by simp only [length_ofBytes, ByteArray.size_append]; omega), bytes_ofBytes]
  constructor
  · have hu := u32At_append_right (before ++ wide.encode.toByteArray)
      (locator.encode.toByteArray ++ rest) 0
    rw [Nat.add_zero, ByteArray.size_append, hw, ByteArray.append_assoc] at hu
    rw [hu, Zip64Locator.u32At_encode]
  · rw [← hw, extract_middle]
    simpa using Zip64Record.decode_encode wide .empty

namespace Archive

variable (a : Archive)

def wideEnd? : List UInt8 :=
  if a.needsWide then
    wideEnd a.entries.length (directory 0 a.entries).length (localPart a.entries).length
  else []

def wideRecord : Zip64Record where
  recordSize := 44
  madeBy := 45
  needed := 45
  disk := 0
  directoryDisk := 0
  diskEntries := .ofNat a.entries.length
  entries := .ofNat a.entries.length
  directorySize := .ofNat (directory 0 a.entries).length
  directoryOffset := .ofNat (localPart a.entries).length

def locator : Zip64Locator :=
  ⟨0, .ofNat ((localPart a.entries).length + (directory 0 a.entries).length), 1⟩

def beforeEnd : ByteArray :=
  (localPart a.entries ++ directory 0 a.entries ++ a.wideEnd?).toByteArray

def fields : EndFields := a.endFields (directory 0 a.entries).length (localPart a.entries).length

def endRecord : EndRecord where
  entries := a.entries.length
  directorySize := (directory 0 a.entries).length
  directoryOffset := (localPart a.entries).length
  archiveStart := 0
  zip64 := a.needsWide
  comment := a.comment

lemma bytes_eq : a.bytes = a.beforeEnd ++ (a.fields.encode.toByteArray ++ a.comment) := by
  simp only [bytes, beforeEnd, wideEnd?, fields, List.toByteArray_append, toByteArray_toList,
    ByteArray.append_assoc]

/-- The lengths fit their fields, names are text, and behind the end record nothing looks like
another one. -/
structure Writable : Prop where
  names : ∀ e ∈ a.entries, ∃ text : String, e.name = text.toUTF8
  nameSizes : ∀ e ∈ a.entries, e.name.size ≤ 0xFFFF
  extraSizes : ∀ e ∈ a.entries, e.localExtra.size ≤ 0xFFFF
  commentSize : a.comment.size ≤ 0xFFFF
  localSize : (localPart a.entries).length < 0xFFFFFFFF
  directorySize : a.needsWide = false → (directory 0 a.entries).length < 0xFFFFFFFF
  last : ∀ i, a.beforeEnd.size < i → fitsAt a.bytes i = false

lemma length_directory_le (offset : Nat) (entries : List StoredEntry) :
    (directory offset entries).length ≤ 2 * (localPart entries).length := by
  induction entries generalizing offset with
  | nil => simp [directory]
  | cons e entries ih =>
    have hd := ih (offset + e.localPart.length)
    have hr := e.length_record offset
    have hl := e.length_localPart
    simp only [directory, localPart_cons, List.length_append,
      StoredEntry.headerLength, LocalHeader.fixedSize, DirectoryRecord.fixedSize] at *
    omega

lemma count_le (entries : List StoredEntry) :
    LocalHeader.fixedSize * entries.length ≤ (localPart entries).length := by
  induction entries with
  | nil => simp
  | cons e entries ih =>
    have hl := e.length_localPart
    simp only [localPart_cons, List.length_append, List.length_cons,
      StoredEntry.headerLength, LocalHeader.fixedSize] at *
    omega

variable {a}

lemma fitsAt_bytes (hc : a.comment.size ≤ 0xFFFF) : fitsAt a.bytes a.beforeEnd.size = true := by
  rw [bytes_eq]
  exact fitsAt_encode _ _ _ (by
    simp [fields, endFields, Nat.mod_eq_of_lt (Nat.lt_succ_of_le hc)])

lemma writable_of_comment_empty (hcomment : a.comment = .empty)
    (hnames : ∀ e ∈ a.entries, ∃ text : String, e.name = text.toUTF8)
    (hsizes : (∀ e ∈ a.entries, e.name.size ≤ 0xFFFF ∧ e.localExtra.size ≤ 0xFFFF) ∧
      (localPart a.entries).length < 0xFFFFFFFF ∧ (directory 0 a.entries).length < 0xFFFFFFFF) :
    a.Writable where
  names := hnames
  nameSizes := fun e he => (hsizes.1 e he).1
  extraSizes := fun e he => (hsizes.1 e he).2
  commentSize := by simp [hcomment]
  localSize := hsizes.2.1
  directorySize := fun _ => hsizes.2.2
  last := by
    -- The end record takes up all of the bytes behind it, so there is no room for another.
    intro i hi
    have hsize : a.bytes.size = a.beforeEnd.size + EndFields.size := by
      rw [bytes_eq, hcomment, ByteArray.append_empty, ByteArray.size_append, EndFields.size_encode]
    have hroom : ¬ i + EndFields.size ≤ a.bytes.size := by omega
    simp [fitsAt, hroom]

lemma Writable.lastFit (h : a.Writable) : LastFit a.bytes a.beforeEnd.size :=
  ⟨fitsAt_bytes h.commentSize, h.last⟩

lemma Writable.counts (h : a.Writable) :
    a.entries.length < 0xFFFFFFFF ∧ (directory 0 a.entries).length < 0x1FFFFFFFF := by
  have hd := length_directory_le 0 a.entries
  have hc := count_le a.entries
  have hl := h.localSize
  simp only [LocalHeader.fixedSize] at hc
  omega

lemma count_lt (hw : a.needsWide = false) : a.entries.length < 0xFFFF := by
  simp only [needsWide, Bool.or_eq_false_iff, decide_eq_false_iff_not] at hw
  omega

lemma escaped_fields (h : a.Writable) : a.fields.escaped = a.needsWide := by
  cases hw : a.needsWide with
  | true => simp [fields, endFields, hw, EndFields.escaped]
  | false =>
    have hd := h.directorySize hw
    have hl := h.localSize
    have hc := count_lt hw
    simp [fields, endFields, hw, EndFields.escaped, ← UInt16.toNat_inj, ← UInt32.toNat_inj]
    omega

lemma zip64Record?_bytes (d : Disk) (hw : a.needsWide = true) :
    zip64Record? d (.ofBytes a.bytes) a.beforeEnd.size =
      .ok (some (a.wideRecord, (localPart a.entries ++ directory 0 a.entries).length)) := by
  have hwide : a.wideEnd? = a.wideRecord.encode ++ a.locator.encode := by
    rw [wideEnd?, if_pos hw]
    rfl
  have hz := zip64Record?_encode d (localPart a.entries ++ directory 0 a.entries).toByteArray
    (a.fields.encode.toByteArray ++ a.comment) a.wideRecord a.locator
  rw [List.size_toByteArray] at hz
  have he : a.beforeEnd.size =
      (localPart a.entries ++ directory 0 a.entries).length + Zip64Record.size +
        Zip64Locator.size := by
    simp only [beforeEnd, hwide, List.size_toByteArray, List.length_append,
      Zip64Record.length_encode, Zip64Locator.length_encode, Nat.add_assoc]
  have hb : a.bytes = (localPart a.entries ++ directory 0 a.entries).toByteArray ++
      (a.wideRecord.encode.toByteArray ++ (a.locator.encode.toByteArray ++
        (a.fields.encode.toByteArray ++ a.comment))) := by
    simp only [bytes_eq, beforeEnd, hwide, List.toByteArray_append, ByteArray.append_assoc]
  rw [hb, he]
  exact hz

lemma decode_bytes (d : Disk) (h : a.Writable) :
    decode d (.ofBytes a.bytes) a.beforeEnd.size (a.fields.encode.toByteArray ++ a.comment) =
      .ok a.endRecord := by
  have hcomment : (a.fields.encode.toByteArray ++ a.comment).extract EndFields.size
      (a.fields.encode.toByteArray ++ a.comment).size = a.comment :=
    ByteArray.extract_append_eq_right (EndFields.size_encode _).symm ByteArray.size_append
  obtain ⟨hc, hd⟩ := h.counts
  have hl := h.localSize
  refine decode_eq_ok_iff.mpr ⟨a.fields, EndFields.decode_encode _ _, ?_⟩
  rw [escaped_fields h, hcomment]
  cases hw : a.needsWide with
  | true =>
    refine .inl ⟨_, _, rfl, zip64Record?_bytes d hw, place_eq_ok_iff.mpr ?_⟩
    simp [wideRecord, endRecord, hw]
    omega
  | false =>
    have hsmall := h.directorySize hw
    have hcount := count_lt hw
    refine .inr ⟨by simp, place_eq_ok_iff.mpr ?_⟩
    simp [fields, endFields, hw, endRecord, beforeEnd, wideEnd?]
    omega

lemma Writable.locate (h : a.Writable) (d : Disk) :
    locate d (.ofBytes a.bytes) = .ok a.endRecord := by
  refine (locate_eq_ok_iff (whole_ofBytes d _)).mpr ⟨a.beforeEnd.size, ?_, ?_⟩
  · rw [bytes_ofBytes]
    exact h.lastFit
  · have hb : a.bytes.extract a.beforeEnd.size a.bytes.size =
        a.fields.encode.toByteArray ++ a.comment := by
      rw [bytes_eq]
      exact ByteArray.extract_append_eq_right rfl ByteArray.size_append
    rw [bytes_ofBytes, length_ofBytes, hb]
    exact decode_bytes d h

end Archive
end JarReader.Zip

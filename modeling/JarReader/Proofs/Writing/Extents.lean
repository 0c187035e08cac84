import JarReader.Proofs.Directory.Extents

namespace JarReader.Zip

open Bytes DirectoryRecord

structure WideEntry where
  madeBy : UInt16
  needed : UInt16
  flags : UInt16
  method : UInt16
  time : UInt16
  date : UInt16
  crc32 : UInt32
  disk : UInt16
  internalAttributes : UInt16
  externalAttributes : UInt32
  name : ByteArray
  comment : ByteArray
  value : Quantity → UInt64
  fields : List ExtraField
  wideRest : List UInt8
  extraRest : List UInt8

namespace WideEntry

variable (x : WideEntry)

def isWide (q : Quantity) : Bool := escape.toNat ≤ (x.value q).toNat

def slot (q : Quantity) : UInt32 := if x.isWide q then escape else .ofNat (x.value q).toNat

def wideValues (quantities : List Quantity) : List UInt8 :=
  (quantities.filter x.isWide).flatMap fun q => ofNumber 8 (x.value q).toNat

def wideData : List UInt8 := x.wideValues Quantity.all ++ x.wideRest

def wideField : List UInt8 :=
  if Quantity.all.any x.isWide then ExtraField.encode ⟨1, x.wideData.toByteArray⟩ else []

def extra : List UInt8 := x.fields.flatMap ExtraField.encode ++ x.wideField ++ x.extraRest

def frontFields : List UInt8 :=
  ofNumber 2 x.madeBy.toNat ++ ofNumber 2 x.needed.toNat ++ ofNumber 2 x.flags.toNat
    ++ ofNumber 2 x.method.toNat ++ ofNumber 2 x.time.toNat ++ ofNumber 2 x.date.toNat
    ++ ofNumber 4 x.crc32.toNat

def lengthFields : List UInt8 :=
  ofNumber 2 x.name.size ++ ofNumber 2 x.extra.length ++ ofNumber 2 x.comment.size

def attributeFields : List UInt8 :=
  ofNumber 2 x.disk.toNat ++ ofNumber 2 x.internalAttributes.toNat
    ++ ofNumber 4 x.externalAttributes.toNat

def header : List UInt8 :=
  ofNumber 4 DirectoryRecord.signature.toNat ++ x.frontFields
    ++ ofNumber 4 (x.slot .compressedSize).toNat ++ ofNumber 4 (x.slot .size).toNat
    ++ x.lengthFields ++ x.attributeFields ++ ofNumber 4 (x.slot .headerOffset).toNat

def bytes : ByteArray := x.header.toByteArray ++ (x.name ++ (x.extra.toByteArray ++ x.comment))

def record (offset : Nat) : DirectoryRecord := ⟨offset, x.bytes⟩

structure Writable : Prop where
  fields : ∀ f ∈ x.fields, f.Foreign
  nameSize : x.name.size ≤ 0xFFFF
  extraSize : x.extra.length ≤ 0xFFFF
  commentSize : x.comment.size ≤ 0xFFFF

lemma toNat_slot {q : Quantity} (hq : ¬ x.isWide q = true) :
    (x.slot q).toNat = (x.value q).toNat := by
  have hlt : (x.value q).toNat < escape.toNat := by simpa [isWide] using hq
  rw [slot, if_neg hq, UInt32.toNat_ofNat_of_lt' (Nat.lt_trans hlt (by decide))]

lemma slot_eq_escape_iff (q : Quantity) : x.slot q = escape ↔ x.isWide q = true := by
  by_cases hq : x.isWide q = true
  · simp [slot, hq]
  · have hslot := x.toNat_slot hq
    have hlt : (x.value q).toNat < escape.toNat := by simpa [isWide] using hq
    refine iff_of_false (fun he => ?_) hq
    rw [he] at hslot
    omega

lemma slot_record (offset : Nat) (q : Quantity) : (x.record offset).slot q = x.slot q := by
  simp only [DirectoryRecord.slot, record, bytes, header, frontFields, lengthFields,
    attributeFields, List.toByteArray_append, ByteArray.append_assoc]
  cases q <;> simp [Quantity.position]

lemma length_header : x.header.length = 46 := by
  simp [header, frontFields, lengthFields, attributeFields, length_ofNumber]

lemma size_bytes : x.bytes.size = 46 + x.name.size + x.extra.length + x.comment.size := by
  simp [bytes, length_header]
  omega

lemma length_wideValues (offset : Nat) (quantities : List Quantity) :
    (x.wideValues quantities).length =
      quantities.foldr (fun p size => (x.record offset).wideSize p + size) 0 := by
  induction quantities with
  | nil => rfl
  | cons q quantities ih =>
    rw [List.foldr_cons, ← ih, wideSize, slot_record]
    by_cases hq : x.isWide q = true
    · rw [if_pos ((x.slot_eq_escape_iff q).mpr hq)]
      simp [wideValues, hq, length_ofNumber]
    · rw [if_neg fun he => hq ((x.slot_eq_escape_iff q).mp he)]
      simp [wideValues, hq]

lemma number_wideData (offset : Nat) {q : Quantity} (hq : x.isWide q = true) :
    (x.record offset).wideOffset q + 8 ≤ x.wideData.length ∧
      number x.wideData.toByteArray ((x.record offset).wideOffset q) 8 = (x.value q).toNat := by
  obtain ⟨after, hall⟩ : ∃ after, Quantity.all = q.before ++ q :: after := by
    cases q <;> exact ⟨_, rfl⟩
  have hdata : x.wideData = x.wideValues q.before ++
      (ofNumber 8 (x.value q).toNat ++ (x.wideValues after ++ x.wideRest)) := by
    simp [wideData, hall, wideValues, hq]
  rw [wideOffset, ← length_wideValues, hdata]
  constructor
  · simp [length_ofNumber]
  · have hn := number_append_right (x.wideValues q.before).toByteArray
      (ofNumber 8 (x.value q).toNat ++ (x.wideValues after ++ x.wideRest)).toByteArray 0 8
    rw [List.size_toByteArray, Nat.add_zero] at hn
    rw [List.toByteArray_append, hn, List.toByteArray_append, number_ofNumber]
    exact Nat.mod_eq_of_lt (x.value q).toNat_lt

section Writable

variable {x} (h : x.Writable)
include h

lemma Writable.lengths :
    nameLengthAt x.bytes 0 = x.name.size ∧ extraLengthAt x.bytes 0 = x.extra.length ∧
      commentLengthAt x.bytes 0 = x.comment.size := by
  have hname := h.nameSize
  have hextra := h.extraSize
  have hcomment := h.commentSize
  simp only [nameLengthAt, extraLengthAt, commentLengthAt, bytes, header, frontFields, lengthFields,
    attributeFields, List.toByteArray_append, ByteArray.append_assoc]
  simp
  omega

lemma Writable.isRecord : Directory.IsRecord x.bytes := by
  obtain ⟨hname, hextra, hcomment⟩ := h.lengths
  refine ⟨?_, ?_⟩
  · refine (u32At_eq_iff ?_ DirectoryRecord.signature).mp ?_
    · rw [size_bytes]
      omega
    · simp [bytes, header, List.toByteArray_append, ByteArray.append_assoc]
  · rw [size_bytes, ← hname, ← hextra, ← hcomment]

lemma Writable.extra_record (offset : Nat) : (x.record offset).extra = x.extra.toByteArray := by
  obtain ⟨hname, hextra, _⟩ := h.lengths
  have hfront : (x.header.toByteArray ++ x.name).size = fixedSize + x.name.size := by
    rw [ByteArray.size_append, List.size_toByteArray, length_header, fixedSize]
  rw [DirectoryRecord.extra, nameLength, extraLength, record, hname, hextra, bytes,
    ← ByteArray.append_assoc, ← hfront, ← List.size_toByteArray, extract_middle]

lemma Writable.firstWide (hwide : Quantity.all.any x.isWide = true) :
    FirstWide x.extra.toByteArray x.wideData.toByteArray := by
  have hsize := h.extraSize
  have hextra : x.extra.toByteArray = (x.fields.flatMap ExtraField.encode).toByteArray ++
      ((ExtraField.head 1 (.ofNat x.wideData.length)).toByteArray ++
        (x.wideData.toByteArray ++ x.extraRest.toByteArray)) := by
    simp [extra, wideField, hwide, ExtraField.encode]
  refine ⟨x.fields, .ofNat x.wideData.length, _, h.fields, hextra, ?_⟩
  have hlength := congrArg ByteArray.size hextra
  simp only [ByteArray.size_append, List.size_toByteArray] at hlength
  rw [UInt16.toNat_ofNat_of_lt' (show x.wideData.length < 65536 by omega),
    ByteArray.extract_append_eq_left List.size_toByteArray.symm]

lemma Writable.extents_record (offset : Nat) (q : Quantity) :
    (x.record offset).extents.get q = (x.value q).toNat := by
  rw [get_extents, slot_record]
  by_cases hq : x.isWide q = true
  · have hany : Quantity.all.any x.isWide = true :=
      List.any_eq_true.mpr ⟨q, by cases q <;> simp [Quantity.all], hq⟩
    obtain ⟨hfits, hnumber⟩ := x.number_wideData offset hq
    rw [h.extra_record, zip64DataFrom_of_firstWide (h.firstWide hany), List.size_toByteArray,
      if_pos ⟨(x.slot_eq_escape_iff q).mpr hq, hfits⟩, hnumber]
  · rw [if_neg fun he => hq ((x.slot_eq_escape_iff q).mp he.1), x.toNat_slot hq]

end Writable

end WideEntry

/-- Quantities of 64 bits that are written into a record and its ZIP64 field are read back. In any
record a slot that is not escaped is taken literally, and the value of an escaped one is in the first
ZIP64 field; one that this field does not hold in full keeps the escape value. -/
theorem extents_read_back :
    (∀ x : WideEntry, x.Writable → ∀ offset, Directory.IsRecord x.bytes ∧
        ∀ q, (x.record offset).extents.get q = (x.value q).toNat) ∧
      ∀ (r : DirectoryRecord) (q : Quantity),
        (r.slot q ≠ escape → r.extents.get q = (r.slot q).toNat) ∧
        (r.slot q = escape →
          (∀ data, FirstWide r.extra data → data.size < r.wideOffset q + 8) →
          r.extents.get q = 2 ^ 32 - 1) ∧
        ∀ data, FirstWide r.extra data → r.slot q = escape → r.wideOffset q + 8 ≤ data.size →
          r.extents.get q = number data (r.wideOffset q) 8 := by
  refine ⟨fun x h offset => ⟨h.isRecord, h.extents_record offset⟩, fun r q => ⟨?_, ?_, ?_⟩⟩
  · intro hslot
    rw [get_extents, if_neg fun he => hslot he.1]
  · intro hslot hshort
    have hempty := firstWide_or_empty r.extra 0
    rw [ByteArray.extract_zero_size] at hempty
    have hsize : (zip64DataFrom r.extra 0).size < r.wideOffset q + 8 := by
      rcases hempty with hfirst | hempty
      · exact hshort _ hfirst
      · rw [hempty, ByteArray.size_empty]
        omega
    rw [get_extents, if_neg fun he => Nat.not_lt_of_le he.2 hsize, hslot]
    rfl
  · intro data hfirst hslot hfits
    rw [← zip64DataFrom_of_firstWide hfirst] at hfits ⊢
    rw [get_extents, if_pos ⟨hslot, hfits⟩]

def WideEntry.sample : WideEntry where
  madeBy := 45
  needed := 45
  flags := 0
  method := 0
  time := 0
  date := 0
  crc32 := 0
  disk := 0
  internalAttributes := 0
  externalAttributes := 0
  name := "a".toUTF8
  comment := "c".toUTF8
  value
    | .size => 0x100000000
    | .compressedSize => 7
    | .headerOffset => 0xFFFFFFFF
  fields := [⟨0x5455, ⟨#[1, 0]⟩⟩, ⟨0xCAFE, .empty⟩]
  wideRest := [9]
  extraRest := [1, 0]

def cutRecord : DirectoryRecord where
  offset := 0
  bytes := ((ofNumber 4 DirectoryRecord.signature.toNat ++ .replicate 20 0
    ++ ofNumber 4 escape.toNat ++ ofNumber 2 0 ++ ofNumber 2 8 ++ .replicate 14 0
    ++ ExtraField.head 1 8 ++ ofNumber 4 5)).toByteArray

theorem extents_read_back_sample :
    (WideEntry.sample.Writable ∧ Directory.IsRecord WideEntry.sample.bytes ∧
        (WideEntry.sample.record 5).extents = ⟨0x100000000, 7, 0xFFFFFFFF⟩) ∧
      cutRecord.slot .size = escape ∧ cutRecord.extents.size = 2 ^ 32 - 1 := by
  have hsample : WideEntry.sample.Writable := by
    refine ⟨fun f hf => ?_, by decide +kernel, by decide +kernel, by decide +kernel⟩
    simp only [WideEntry.sample, List.mem_cons, List.not_mem_nil, or_false] at hf
    rcases hf with rfl | rfl <;> exact ⟨by decide, by decide⟩
  obtain ⟨hrecord, hget⟩ := extents_read_back.1 WideEntry.sample hsample 5
  have hslot : cutRecord.slot .size = escape := by decide +kernel
  have hcut := (extents_read_back.2 cutRecord .size).2.1 hslot
  refine ⟨⟨hsample, hrecord, ?_⟩, hslot, hcut fun data hdata => ?_⟩
  · have hsize := hget .size
    have hcompressed := hget .compressedSize
    have hheader := hget .headerOffset
    generalize (WideEntry.sample.record 5).extents = extents at hsize hcompressed hheader
    obtain ⟨size, compressedSize, headerOffset⟩ := extents
    exact congr (congrArg₂ Extents.mk hsize hcompressed) hheader
  · rw [← zip64DataFrom_of_firstWide hdata]
    decide +kernel

end JarReader.Zip

import JarReader.Jar.Entry
import JarReader.Proofs.Directory.Records
import JarReader.Proofs.Writing.Fields

namespace JarReader.Zip

open Bytes DirectoryRecord

structure Located where
  entry : StoredEntry
  headerOffset : Nat
  directoryOffset : Nat

namespace Located

def listed (x : Located) : Entry where
  name := Text.ofBytes x.entry.name
  method := .stored
  crc32 := Checksum.crc32 x.entry.content
  compressedSize := x.entry.content.size
  size := x.entry.content.size
  packedTime := x.entry.packedTime
  extra := .empty
  comment := .empty
  headerOffset := x.headerOffset
  directoryOffset := x.directoryOffset

def record (x : Located) : DirectoryRecord :=
  ⟨x.directoryOffset, (x.entry.record x.headerOffset).toByteArray⟩

end Located

def located : (headerOffset directoryOffset : Nat) → List StoredEntry → List Located
  | _, _, [] => []
  | headerOffset, directoryOffset, e :: entries =>
    ⟨e, headerOffset, directoryOffset⟩ ::
      located (headerOffset + e.localPart.length)
        (directoryOffset + (e.record headerOffset).length) entries

lemma map_entry_located (headerOffset directoryOffset : Nat) (entries : List StoredEntry) :
    (located headerOffset directoryOffset entries).map Located.entry = entries := by
  induction entries generalizing headerOffset directoryOffset with
  | nil => rfl
  | cons e entries ih => rw [located, List.map_cons, ih]

lemma localPart_append (xs ys : List StoredEntry) :
    Archive.localPart (xs ++ ys) = Archive.localPart xs ++ Archive.localPart ys :=
  List.flatMap_append

lemma localPart_cons (e : StoredEntry) (entries : List StoredEntry) :
    Archive.localPart (e :: entries) = e.localPart ++ Archive.localPart entries := rfl

lemma mem_located {headerOffset directoryOffset : Nat} {entries : List StoredEntry} {x : Located}
    (h : x ∈ located headerOffset directoryOffset entries) :
    ∃ before after, entries = before ++ x.entry :: after ∧
      x.headerOffset = headerOffset + (Archive.localPart before).length ∧
      x.directoryOffset = directoryOffset + (Archive.directory headerOffset before).length := by
  induction entries generalizing headerOffset directoryOffset with
  | nil => cases h
  | cons e entries ih =>
    rw [located, List.mem_cons] at h
    rcases h with rfl | h
    · exact ⟨[], entries, rfl, rfl, rfl⟩
    · obtain ⟨before, after, rfl, hh, hd⟩ := ih h
      refine ⟨e :: before, after, rfl, ?_, ?_⟩
      · rw [hh, localPart_cons, List.length_append, Nat.add_assoc]
      · rw [hd, Archive.directory, List.length_append, Nat.add_assoc]

lemma directory_append (offset : Nat) (xs ys : List StoredEntry) :
    Archive.directory offset (xs ++ ys) =
      Archive.directory offset xs ++
        Archive.directory (offset + (Archive.localPart xs).length) ys := by
  induction xs generalizing offset with
  | nil => rfl
  | cons x xs ih =>
    rw [List.cons_append, Archive.directory, ih, Archive.directory, List.append_assoc,
      localPart_cons, List.length_append, Nat.add_assoc]

section Record

variable {e : StoredEntry} (hname : e.name.size ≤ 0xFFFF) (offset : Nat)
include hname

lemma sizeAt_record (rest : ByteArray) :
    sizeAt ((e.record offset).toByteArray ++ rest) 0 = (e.record offset).length := by
  rw [StoredEntry.length_record]
  simp only [StoredEntry.record, StoredEntry.commonFields, List.toByteArray_append,
    ByteArray.append_assoc]
  simp [sizeAt, nameLengthAt, extraLengthAt, commentLengthAt]
  omega

lemma sizeAt_append_record (before rest : ByteArray) :
    sizeAt (before ++ ((e.record offset).toByteArray ++ rest)) before.size =
      (e.record offset).length := by
  rw [← sizeAt_record hname offset rest]
  simp only [sizeAt, nameLengthAt, extraLengthAt, commentLengthAt, u16At_append_right, Nat.zero_add]

lemma checkRecord_record (before rest : ByteArray) :
    Directory.checkRecord (before ++ ((e.record offset).toByteArray ++ rest)) before.size =
      .ok (e.record offset).length := by
  have hl := e.length_record offset
  refine Directory.checkRecord_eq_ok_iff.mpr ⟨?_, ?_, ?_, (sizeAt_append_record hname offset _ _).symm⟩
  · simp only [ByteArray.size_append, List.size_toByteArray]
    omega
  · have hu := u32At_append_right before ((e.record offset).toByteArray ++ rest) 0
    rw [Nat.add_zero] at hu
    rw [hu]
    simp [StoredEntry.record, ByteArray.append_assoc]
  · rw [sizeAt_append_record hname]
    simp only [ByteArray.size_append, List.size_toByteArray]
    omega

lemma recordAt_record (before rest : ByteArray) :
    Directory.recordAt (before ++ ((e.record offset).toByteArray ++ rest)) before.size =
      ⟨before.size, (e.record offset).toByteArray⟩ := by
  have hs : (e.record offset).length = (e.record offset).toByteArray.size := by simp
  rw [Directory.recordAt, sizeAt_append_record hname, hs, extract_middle]

end Record

lemma records_directory {entries : List StoredEntry} (hnames : ∀ e ∈ entries, e.name.size ≤ 0xFFFF)
    (before : ByteArray) (offset : Nat) :
    Directory.Records (before ++ (Archive.directory offset entries).toByteArray) before.size
      ((located offset before.size entries).map Located.directoryOffset) := by
  induction entries generalizing before offset with
  | nil => exact .done (by simp [Archive.directory])
  | cons e entries ih =>
    have hname := hnames e List.mem_cons_self
    have hl := e.length_record offset
    have hb : (before ++ (e.record offset).toByteArray).size =
        before.size + (e.record offset).length := by simp [ByteArray.size_append]
    have hrest := ih (fun x hx => hnames x (List.mem_cons_of_mem _ hx))
      (before ++ (e.record offset).toByteArray) (offset + e.localPart.length)
    rw [hb, ByteArray.append_assoc] at hrest
    rw [Archive.directory, List.toByteArray_append, located, List.map_cons]
    refine .next ?_ (checkRecord_record hname offset before _) hrest
    simp only [ByteArray.size_append, List.size_toByteArray, fixedSize] at *
    omega

lemma recordAt_located {entries : List StoredEntry} (hnames : ∀ e ∈ entries, e.name.size ≤ 0xFFFF)
    {x : Located} (hx : x ∈ located 0 0 entries) :
    Directory.recordAt (Archive.directory 0 entries).toByteArray x.directoryOffset = x.record := by
  obtain ⟨before, after, rfl, hh, hd⟩ := mem_located hx
  have hname := hnames x.entry (by simp)
  rw [Nat.zero_add] at hh hd
  have hr := recordAt_record hname x.headerOffset (Archive.directory 0 before).toByteArray
    (Archive.directory (x.headerOffset + x.entry.localPart.length) after).toByteArray
  rw [List.size_toByteArray, ← hd] at hr
  rw [directory_append, Nat.zero_add, ← hh, Archive.directory, List.toByteArray_append,
    List.toByteArray_append]
  exact hr

section Listed

variable {x : Located} (hname : x.entry.name.size ≤ 0xFFFF)

lemma size_record : x.record.bytes.size = fixedSize + x.entry.name.size := by
  rw [Located.record, List.size_toByteArray, StoredEntry.length_record]

lemma stripBytes_empty (name : ByteArray) : Entry.stripBytes .empty name = name := by
  simp [Entry.stripBytes, occursAt]

lemma extra_record : x.record.extra = .empty := by
  have he : x.record.extraLength = 0 := by
    simp only [extraLength, Located.record, StoredEntry.record, StoredEntry.commonFields,
      List.toByteArray_append, ByteArray.append_assoc]
    simp [extraLengthAt]
  rw [extra, he, Nat.add_zero, ByteArray.extract_same]

lemma method_record : x.record.method = .stored := by
  simp only [method, Located.record, StoredEntry.record, StoredEntry.commonFields,
    List.toByteArray_append, ByteArray.append_assoc]
  simp [Method.ofCode, Method.code]

lemma crc32_record : x.record.crc32 = Checksum.crc32 x.entry.content := by
  simp only [crc32, Located.record, StoredEntry.record, StoredEntry.commonFields,
    List.toByteArray_append, ByteArray.append_assoc]
  simp

lemma packedTime_record : x.record.packedTime = x.entry.packedTime := by
  -- the two halves that are read were written as one field
  rw [packedTime, ← u32At_eq]
  simp only [Located.record, StoredEntry.record, StoredEntry.commonFields,
    List.toByteArray_append, ByteArray.append_assoc]
  simp

lemma extents_record (hcontent : x.entry.content.size < 0xFFFFFFFF)
    (hoffset : x.headerOffset < 0xFFFFFFFF) :
    x.record.extents = ⟨x.entry.content.size, x.entry.content.size, x.headerOffset⟩ := by
  have hwide : zip64DataFrom .empty 0 = .empty := by
    rw [zip64DataFrom]
    simp
  simp only [extents, extra_record, hwide]
  simp only [Located.record, StoredEntry.record, StoredEntry.commonFields,
    List.toByteArray_append, ByteArray.append_assoc]
  simp [widen]
  omega

include hname

lemma nameLength_record : x.record.nameLength = x.entry.name.size := by
  simp only [nameLength, Located.record, StoredEntry.record, StoredEntry.commonFields,
    List.toByteArray_append, ByteArray.append_assoc]
  simp [nameLengthAt]
  omega

lemma name_record : x.record.name = x.entry.name := by
  rw [name, nameLength_record hname]
  simp only [Located.record, StoredEntry.record, List.toByteArray_append, toByteArray_toList]
  apply ByteArray.extract_append_eq_right
  · simp [ByteArray.size_append, StoredEntry.length_commonFields, fixedSize, length_ofNumber]
  · simp [ByteArray.size_append, StoredEntry.length_commonFields, fixedSize, length_ofNumber]

lemma comment_record : x.record.comment = .empty := by
  rw [comment, nameLength_record hname, ByteArray.extract_eq_empty_iff, size_record]
  omega

lemma ofRecord_record (hcontent : x.entry.content.size < 0xFFFFFFFF)
    (hoffset : x.headerOffset < 0xFFFFFFFF) : Entry.ofRecord x.record .empty = x.listed := by
  simp only [Entry.ofRecord, Located.listed, stripBytes_empty, name_record hname, method_record,
    crc32_record, extents_record hcontent hoffset, packedTime_record, extra_record,
    comment_record hname]
  rfl

end Listed

end JarReader.Zip

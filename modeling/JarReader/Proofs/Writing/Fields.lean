import JarReader.Proofs.Bytes
import JarReader.Zip.Writing

namespace JarReader.Zip

open Bytes

attribute [local simp] length_ofNumber

lemma EndFields.length_encode (e : EndFields) : e.encode.length = EndFields.size := by
  simp [encode, size]

lemma EndFields.size_encode (e : EndFields) : e.encode.toByteArray.size = EndFields.size := by
  rw [List.size_toByteArray, length_encode]

lemma EndFields.decode_encode (e : EndFields) (rest : ByteArray) :
    EndFields.decode (e.encode.toByteArray ++ rest) = .ok e := by
  simp only [encode, List.toByteArray_append, ByteArray.append_assoc]
  simp [decode, readAt, size]
  omega

lemma Zip64Locator.length_encode (l : Zip64Locator) : l.encode.length = Zip64Locator.size := by
  simp [encode, size]

lemma Zip64Locator.u32At_encode (l : Zip64Locator) (rest : ByteArray) :
    u32At (l.encode.toByteArray ++ rest) 0 = Zip64Locator.signature := by
  simp [encode, ByteArray.append_assoc]

lemma Zip64Locator.u64At_encode (l : Zip64Locator) (rest : ByteArray) :
    u64At (l.encode.toByteArray ++ rest) 8 = l.recordOffset := by
  simp [encode, ByteArray.append_assoc]

lemma Zip64Record.length_encode (r : Zip64Record) : r.encode.length = Zip64Record.size := by
  simp [encode, size]

lemma Zip64Record.decode_encode (r : Zip64Record) (rest : ByteArray) :
    Zip64Record.decode (r.encode.toByteArray ++ rest) = .ok r := by
  simp only [encode, List.toByteArray_append, ByteArray.append_assoc]
  simp [decode, size]
  omega

lemma LocalHeader.decode_extract {b : ByteArray} (h : LocalHeader.fixedSize ≤ b.size)
    (offset : Nat) :
    LocalHeader.decode (b.extract 0 LocalHeader.fixedSize) offset = LocalHeader.decode b offset := by
  have hs : (b.extract 0 LocalHeader.fixedSize).size = LocalHeader.fixedSize := by
    rw [ByteArray.size_extract]
    omega
  have h32 : u32At (b.extract 0 LocalHeader.fixedSize) 0 = u32At b 0 :=
    u32At_extract (by simp [LocalHeader.fixedSize])
  have hn : u16At (b.extract 0 LocalHeader.fixedSize) 26 = u16At b 26 :=
    u16At_extract (by simp [LocalHeader.fixedSize])
  have hx : u16At (b.extract 0 LocalHeader.fixedSize) 28 = u16At b 28 :=
    u16At_extract (by simp [LocalHeader.fixedSize])
  simp only [decode, hs, h32, hn, hx, Nat.lt_irrefl, Nat.not_lt_of_le h]

namespace StoredEntry

variable (e : StoredEntry)

lemma length_commonFields : e.commonFields.length = 24 := by
  simp [commonFields]

def headerLength : Nat := LocalHeader.fixedSize + e.name.size + e.localExtra.size

lemma length_localPart : e.localPart.length = e.headerLength + e.content.size := by
  simp [localPart, length_commonFields, headerLength, LocalHeader.fixedSize]
  omega

lemma length_record (offset : Nat) :
    (e.record offset).length = DirectoryRecord.fixedSize + e.name.size := by
  simp [record, length_commonFields, DirectoryRecord.fixedSize]
  omega

lemma decode_localPart (rest : ByteArray) (offset : Nat) :
    LocalHeader.decode (e.localPart.toByteArray ++ rest) offset =
      .ok ⟨.ofNat e.name.size, .ofNat e.localExtra.size⟩ := by
  simp only [localPart, commonFields, List.toByteArray_append, ByteArray.append_assoc]
  simp [LocalHeader.decode, LocalHeader.fixedSize]
  omega

lemma size_localHeader (hname : e.name.size ≤ 0xFFFF) (hextra : e.localExtra.size ≤ 0xFFFF) :
    LocalHeader.size ⟨.ofNat e.name.size, .ofNat e.localExtra.size⟩ = e.headerLength := by
  simp [LocalHeader.size, headerLength]
  omega

lemma localPart_eq :
    ∃ header : ByteArray, header.size = e.headerLength ∧
      e.localPart.toByteArray = header ++ e.content := by
  refine ⟨(ofNumber 4 LocalHeader.signature.toNat ++ e.commonFields
    ++ ofNumber 2 e.localExtra.size ++ e.name.data.toList ++ e.localExtra.data.toList).toByteArray,
    ?_, ?_⟩
  · simp [length_commonFields, headerLength, LocalHeader.fixedSize]
    omega
  · rw [localPart, List.toByteArray_append, toByteArray_toList]

end StoredEntry

end JarReader.Zip

import JarReader.Proofs.Directory.Records

/-! Indexing a directory never reads outside it. With readings that have no result there, and with
each record indexed as soon as it is checked, the outcome is the same. -/

namespace JarReader

namespace Bytes

def u16At? (b : ByteArray) (i : Nat) : Option UInt16 :=
  if i + 2 ≤ b.size then some (u16At b i) else none

def u32At? (b : ByteArray) (i : Nat) : Option UInt32 :=
  if i + 4 ≤ b.size then some (u32At b i) else none

def part? (b : ByteArray) (first last : Nat) : Option ByteArray :=
  if first ≤ last ∧ last ≤ b.size then some (b.extract first last) else none

end Bytes

namespace Zip.Directory

open Bytes DirectoryRecord

def nameLengthAt? (b : ByteArray) (i : Nat) : Option Nat := do
  let name ← u16At? b (i + 28)
  return name.toNat

def sizeAt? (b : ByteArray) (i : Nat) : Option Nat := do
  let name ← nameLengthAt? b i
  let extra ← u16At? b (i + 30)
  let comment ← u16At? b (i + 32)
  return fixedSize + name + extra.toNat + comment.toNat

def checkRecord? (b : ByteArray) (offset : Nat) : Option (Except FormatFault Nat) := do
  if b.size < offset then none
  else if b.size - offset < fixedSize then return .error (.directory offset .truncatedHeader)
  else
    let found ← u32At? b offset
    if found ≠ DirectoryRecord.signature then return .error (.directory offset .badSignature)
    else
      let size ← sizeAt? b offset
      if b.size - offset < size then return .error (.directory offset .recordOverrun)
      else return .ok size

def push? (c : Chains) (hash : UInt32) (offset : Nat) : Option Chains := do
  let next ← c.heads[c.bucket hash]?
  return ⟨c.heads.setIfInBounds (c.bucket hash) (.ofNat c.slots.size),
    c.slots.push ⟨hash, next, offset⟩⟩

def indexRecord? (b : ByteArray) (c : Chains) (offset : Nat) : Option Chains := do
  let first := offset + fixedSize
  let length ← nameLengthAt? b offset
  let name ← part? b first (first + length)
  push? c (hashBytes 0 name) offset

lemma sizeAt?_eq {b : ByteArray} {offset : Nat} (h : offset + fixedSize ≤ b.size) :
    sizeAt? b offset = some (sizeAt b offset) := by
  simp only [fixedSize] at h
  have h28 : offset + 28 + 2 ≤ b.size := by omega
  have h30 : offset + 30 + 2 ≤ b.size := by omega
  have h32 : offset + 32 + 2 ≤ b.size := by omega
  simp [sizeAt?, nameLengthAt?, u16At?, h28, h30, h32, sizeAt, nameLengthAt, extraLengthAt,
    commentLengthAt]

def recordAt? (b : ByteArray) (offset : Nat) : Option DirectoryRecord := do
  let size ← sizeAt? b offset
  let bytes ← part? b offset (offset + size)
  return ⟨offset, bytes⟩

lemma recordAt?_eq {b : ByteArray} {offset size : Nat} (h : offset ≤ b.size)
    (hc : checkRecord b offset = .ok size) : recordAt? b offset = some (recordAt b offset) := by
  obtain ⟨hfixed, _, hl, _⟩ := checkRecord_eq_ok_iff.mp hc
  have hpart : part? b offset (offset + sizeAt b offset) =
      some (b.extract offset (offset + sizeAt b offset)) := if_pos (by omega)
  rw [recordAt?, sizeAt?_eq (by omega)]
  simp [hpart, recordAt]

lemma checkRecord?_eq {b : ByteArray} {offset : Nat} (h : offset ≤ b.size) :
    checkRecord? b offset = some (checkRecord b offset) := by
  rw [checkRecord?, checkRecord, if_neg (Nat.not_lt_of_le h)]
  by_cases hl : b.size - offset < fixedSize
  · rw [if_pos hl, if_pos hl]
    rfl
  · have hf : offset + fixedSize ≤ b.size := by omega
    have h32 : u32At? b offset = some (u32At b offset) := by
      apply if_pos
      simp only [fixedSize] at hf
      omega
    rw [if_neg hl, if_neg hl, h32, sizeAt?_eq hf]
    simp only [bind, Option.bind, pure]
    split
    · rfl
    · split <;> rfl

lemma indexRecord?_eq {b : ByteArray} {c : Chains} {offset size : Nat} (hb : 0 < c.heads.size)
    (h : offset ≤ b.size) (hc : checkRecord b offset = .ok size) :
    indexRecord? b c offset = some (indexRecord b c offset) := by
  obtain ⟨hfixed, _, hl, _⟩ := checkRecord_eq_ok_iff.mp hc
  simp only [sizeAt, fixedSize] at hfixed hl
  have h16 : u16At? b (offset + 28) = some (u16At b (offset + 28)) := if_pos (by omega)
  have hname : part? b (offset + fixedSize) (offset + fixedSize + nameLengthAt b offset) =
      some (b.extract (offset + fixedSize) (offset + fixedSize + nameLengthAt b offset)) := by
    apply if_pos
    simp only [fixedSize]
    omega
  have hpush (hash : UInt32) : push? c hash offset = some (c.push hash offset) := by
    have hbucket : c.bucket hash < c.heads.size := Nat.mod_lt _ hb
    simp [push?, Chains.push, Chains.head, hbucket, Array.getD]
  simp only [nameLengthAt] at hname
  simp [indexRecord?, nameLengthAt?, h16, hname, hpush, indexRecord, nameLengthAt]

def indexFrom? (b : ByteArray) (declared offset : Nat) (c : Chains) :
    Option (Except FormatFault Chains) :=
  if offset < b.size then
    if c.slots.size = declared then some (.error (.entryCount declared (c.slots.size + 1)))
    else
      match _checked : checkRecord? b offset with
      | none => none
      | some (.error fault) => some (.error fault)
      | some (.ok size) =>
        match indexRecord? b c offset with
        | none => none
        | some c => indexFrom? b declared (offset + size) c
  else if c.slots.size = declared then some (.ok c)
  else some (.error (.entryCount declared c.slots.size))
termination_by b.size - offset
decreasing_by
  have hc := checkRecord?_eq (Nat.le_of_lt ‹_›)
  rw [hc] at _checked
  have := fixedSize_le_of_checkRecord (Option.some.inj _checked)
  simp only [fixedSize] at this
  omega

def parse? (b : ByteArray) (declared : Nat) : Option (Except FormatFault Directory) :=
  if endMark.toNat ≤ declared then some (.error (.directory 0 .tooManyEntries))
  else (indexFrom? b declared 0 (.empty (bucketCount b declared))).map (Except.map (Directory.mk b))

lemma sizes_foldl (b : ByteArray) (c : Chains) (offsets : List Nat) :
    (offsets.foldl (indexRecord b) c).heads.size = c.heads.size ∧
      (offsets.foldl (indexRecord b) c).slots.size = c.slots.size + offsets.length := by
  induction offsets generalizing c with
  | nil => exact ⟨rfl, rfl⟩
  | cons offset offsets ih =>
    obtain ⟨hheads, hslots⟩ := ih (indexRecord b c offset)
    rw [List.foldl_cons, hheads, hslots]
    simp [indexRecord, Chains.push]
    omega

section Steps

variable {b : ByteArray} {declared offset : Nat} {c : Chains} (ho : offset < b.size)
  (hd : c.slots.size ≠ declared)
include ho hd

lemma indexFrom?_error {fault : FormatFault} (hc : checkRecord b offset = .error fault) :
    indexFrom? b declared offset c = some (.error fault) := by
  have hc? := checkRecord?_eq (Nat.le_of_lt ho)
  rw [indexFrom?, if_pos ho, if_neg hd]
  split <;> simp_all

lemma indexFrom?_ok {size : Nat} (hb : 0 < c.heads.size) (hc : checkRecord b offset = .ok size) :
    indexFrom? b declared offset c =
      indexFrom? b declared (offset + size) (indexRecord b c offset) := by
  have hc? := checkRecord?_eq (Nat.le_of_lt ho)
  have hi := indexRecord?_eq hb (Nat.le_of_lt ho) hc
  rw [indexFrom?, if_pos ho, if_neg hd]
  split <;> simp_all

end Steps

lemma indexFrom?_eq (b : ByteArray) (declared offset : Nat) (found : Array Nat) {buckets : Nat}
    (hb : 0 < buckets) :
    indexFrom? b declared offset (found.foldl (indexRecord b) (.empty buckets)) =
      some ((offsetsFrom b declared offset found).map
        (·.foldl (indexRecord b) (.empty buckets))) := by
  have hslots (offsets : Array Nat) :
      (offsets.foldl (indexRecord b) (.empty buckets)).slots.size = offsets.size := by
    rw [← Array.foldl_toList, (sizes_foldl b _ _).2]
    simp [Chains.empty]
  have hheads (offsets : Array Nat) :
      0 < (offsets.foldl (indexRecord b) (.empty buckets)).heads.size := by
    rw [← Array.foldl_toList, (sizes_foldl b _ _).1]
    simpa [Chains.empty] using hb
  fun_induction offsetsFrom b declared offset found with
  | case1 offset found ho hd =>
    rw [indexFrom?, if_pos ho, if_pos ((hslots found).trans hd), hslots]
    rfl
  | case2 offset found ho hd fault hc =>
    exact indexFrom?_error ho (by rwa [hslots]) hc
  | case3 offset found ho hd size hc ih =>
    rw [indexFrom?_ok ho (by rwa [hslots]) (hheads found) hc, ← ih, Array.foldl_push]
  | case4 offset found ho hd =>
    rw [indexFrom?, if_neg ho, if_pos ((hslots found).trans hd)]
    rfl
  | case5 offset found ho hd =>
    rw [indexFrom?, if_neg ho, if_neg (by rwa [hslots]), hslots]
    rfl

lemma parse?_eq (b : ByteArray) (declared : Nat) : parse? b declared = some (parse b declared) := by
  rw [parse?, parse]
  split
  · rfl
  · have hi := indexFrom?_eq b declared 0 #[] (bucketCount_pos b declared)
    rw [Array.foldl_empty] at hi
    rw [hi]
    cases offsetsFrom b declared 0 #[] <;> rfl

end Zip.Directory
end JarReader

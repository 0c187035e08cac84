import JarReader.Jar.Entry
import JarReader.Proofs.Directory.Concatenation
import JarReader.Proofs.Guarded.Basic

namespace JarReader.Guarded

open Bytes Zip Directory DirectoryRecord

section Index

/-- A slot is numbered by a 32-bit word that does not end a chain. -/
def indexFrom (b : ByteArray) (declared offset : Nat) (c : Chains) : Guarded Chains :=
  if offset < b.size then
    if c.slots.size = declared then throw (.entryCount declared (c.slots.size + 1))
    else
      match _checked : checkRecord? b offset with
      | none => none
      | some (.error fault) => throw fault
      | some (.ok size) =>
        match sum offset size, indexRecord? b c offset with
        | some _, some c =>
          if c.slots.size ≤ endMark.toNat then indexFrom b declared (offset + size) c else none
        | _, _ => none
  else if c.slots.size = declared then pure c
  else throw (.entryCount declared c.slots.size)
termination_by b.size - offset
decreasing_by
  have hc := checkRecord?_eq (Nat.le_of_lt ‹_›)
  rw [hc] at _checked
  have := fixedSize_le_of_checkRecord (Option.some.inj _checked)
  simp only [fixedSize] at this
  omega

def directory (b : ByteArray) (declared : Nat) : Guarded Directory :=
  if endMark.toNat ≤ declared then throw (.directory 0 .tooManyEntries)
  else Directory.mk b <$> indexFrom b declared 0 (.empty (bucketCount b declared))

lemma slots_indexRecord? {b : ByteArray} {c c' : Chains} {offset : Nat}
    (h : indexRecord? b c offset = some c') : c'.slots.size = c.slots.size + 1 := by
  simp only [indexRecord?, push?, Option.bind_eq_bind, Option.bind_eq_some_iff] at h
  obtain ⟨_, _, _, _, _, _, hc⟩ := h
  cases hc
  exact Array.size_push _

lemma run_indexFrom {b : ByteArray} {declared offset : Nat} {c : Chains}
    (hb : b.size < UInt64.size) (hd : declared < endMark.toNat) (hc : c.slots.size ≤ declared) :
    (indexFrom b declared offset c).run = indexFrom? b declared offset c := by
  fun_induction indexFrom? b declared offset c with
  | case1 offset c ho hs =>
    rw [indexFrom, if_pos ho, if_pos hs]
    rfl
  | case2 offset c ho hs hcheck =>
    rw [indexFrom, if_pos ho, if_neg hs]
    split
    · rfl
    · simp_all
    · simp_all
  | case3 offset c ho hs fault hcheck =>
    rw [indexFrom, if_pos ho, if_neg hs]
    split <;> simp_all
  | case4 offset c ho hs size hcheck hindex =>
    rw [indexFrom, if_pos ho, if_neg hs]
    split
    · rfl
    · simp_all
    · rw [hindex]
      split
      · simp_all
      · rfl
  | case5 offset c ho hs size hcheck c' hindex ih =>
    have hslots := slots_indexRecord? hindex
    have hsum : sum offset size = some (offset + size) := by
      rw [checkRecord?_eq (Nat.le_of_lt ho)] at hcheck
      obtain ⟨_, _, _, rfl⟩ := checkRecord_eq_ok_iff.mp (Option.some.inj hcheck)
      exact sum_eq (by omega)
    rw [← ih (by omega), indexFrom, if_pos ho, if_neg hs]
    split
    · simp_all
    · simp_all
    · rename_i found hfound
      rw [hcheck] at hfound
      cases hfound
      rw [hsum, hindex]
      exact congrArg ExceptT.run (if_pos (by omega))
  | case6 offset c ho hs =>
    rw [indexFrom, if_neg ho, if_pos hs]
    rfl
  | case7 offset c ho hs =>
    rw [indexFrom, if_neg ho, if_neg hs]
    rfl

lemma ofOpening_of_parse {b : ByteArray} {declared : Nat} {fault : FormatFault}
    (h : parse b declared = .error fault) : fault.OfOpening := by
  rcases parse_error h with ⟨offset, cause, rfl⟩ | ⟨count, rfl⟩
  · exact .directory offset cause
  · exact .entryCount declared count

lemma run_directory {b : ByteArray} (hb : b.size < UInt64.size) (declared : Nat) :
    (directory b declared).run = some (parse b declared) := by
  rw [← parse?_eq, directory, parse?]
  by_cases hd : endMark.toNat ≤ declared
  · rw [if_pos hd, if_pos hd]
    rfl
  · have hi := @run_indexFrom b declared 0 (.empty (bucketCount b declared)) hb
      (Nat.lt_of_not_le hd) (Nat.zero_le _)
    rw [if_neg hd, if_neg hd, ExceptT.run_map, hi]
    rfl

end Index

section Fields

variable (r : DirectoryRecord)

def lengthsOf : Option (Nat × Nat) := do
  let name ← u16At? r.bytes 28
  let extra ← u16At? r.bytes 30
  return (name.toNat, extra.toNat)

def nameOf : Option ByteArray := do
  let lengths ← lengthsOf r
  part? r.bytes fixedSize (fixedSize + lengths.1)

def extraOf : Option ByteArray := do
  let lengths ← lengthsOf r
  part? r.bytes (fixedSize + lengths.1) (fixedSize + lengths.1 + lengths.2)

def commentOf : Option ByteArray := do
  let lengths ← lengthsOf r
  part? r.bytes (fixedSize + lengths.1 + lengths.2) r.bytes.size

def packedTimeOf : Option UInt32 := do
  let date ← u16At? r.bytes 14
  let time ← u16At? r.bytes 12
  return date.toUInt32 * 65536 + time.toUInt32

def zip64DataFrom (extra : ByteArray) (i : Nat) : Option ByteArray :=
  if i + 4 ≤ extra.size then do
    let id ← u16At? extra i
    let size ← u16At? extra (i + 2)
    let data ← part? extra (i + 4) (min (i + 4 + size.toNat) extra.size)
    if id = 1 then return data else zip64DataFrom extra (i + 4 + size.toNat)
  else some .empty
termination_by extra.size - i
decreasing_by omega

def widen (wide : ByteArray) (used : Nat) (slot : UInt32) : Option (Nat × Nat) :=
  if slot = escape && used + 8 ≤ wide.size then do
    let value ← u64At? wide used
    return (value.toNat, used + 8)
  else some (slot.toNat, used)

def extentsOf : Option Extents := do
  let size ← u32At? r.bytes 24
  let compressedSize ← u32At? r.bytes 20
  let headerOffset ← u32At? r.bytes 42
  if size ≠ escape ∧ compressedSize ≠ escape ∧ headerOffset ≠ escape then
    return ⟨size.toNat, compressedSize.toNat, headerOffset.toNat⟩
  else
    let extra ← extraOf r
    let wide ← zip64DataFrom extra 0
    let size ← widen wide 0 size
    let compressedSize ← widen wide size.2 compressedSize
    let headerOffset ← widen wide compressedSize.2 headerOffset
    return ⟨size.1, compressedSize.1, headerOffset.1⟩

def entryOf (start : ByteArray) : Option Entry := do
  let name ← nameOf r
  let method ← u16At? r.bytes 10
  let crc32 ← u32At? r.bytes 16
  let extents ← extentsOf r
  return {
    name := Text.ofBytes (Entry.stripBytes start name)
    method := .ofCode method
    crc32 := crc32
    compressedSize := extents.compressedSize
    size := extents.size
    packedTime := ← packedTimeOf r
    extra := ← extraOf r
    comment := ← commentOf r
    headerOffset := extents.headerOffset
    directoryOffset := r.offset }

lemma widen_eq (wide : ByteArray) (used : Nat) (slot : UInt32) :
    widen wide used slot = some (DirectoryRecord.widen wide used slot) := by
  rw [widen, DirectoryRecord.widen]
  by_cases hw : slot = escape && used + 8 ≤ wide.size
  · simp only [Bool.and_eq_true, decide_eq_true_eq] at hw
    simp [hw, u64At?_eq]
  · rw [if_neg hw, if_neg hw]

lemma widen_of_ne {wide : ByteArray} {used : Nat} {slot : UInt32} (h : slot ≠ escape) :
    DirectoryRecord.widen wide used slot = (slot.toNat, used) := by
  simp [DirectoryRecord.widen, h]

lemma part?_min {b : ByteArray} {first last : Nat} (h : first ≤ last) (hb : first ≤ b.size) :
    part? b first (min last b.size) = some (b.extract first last) := by
  rw [part?_eq (by omega) (Nat.min_le_right _ _), extract_min]

lemma zip64DataFrom_eq (extra : ByteArray) (i : Nat) :
    zip64DataFrom extra i = some (DirectoryRecord.zip64DataFrom extra i) := by
  fun_induction DirectoryRecord.zip64DataFrom extra i with
  | case1 i hi next h1 =>
    rw [zip64DataFrom, if_pos hi, u16At?_eq (by omega), u16At?_eq (by omega)]
    simp only [Option.bind_eq_bind, Option.bind_some]
    rw [part?_min (Nat.le_add_right _ _) hi, Option.bind_some, if_pos h1]
    rfl
  | case2 i hi next h1 ih =>
    rw [zip64DataFrom, if_pos hi, u16At?_eq (by omega), u16At?_eq (by omega)]
    simp only [Option.bind_eq_bind, Option.bind_some]
    rw [part?_min (Nat.le_add_right _ _) hi, Option.bind_some, if_neg h1]
    exact ih
  | case3 i hi => rw [zip64DataFrom, if_neg hi]

section Record

variable {r : DirectoryRecord} (h : IsRecord r.bytes)
include h

lemma lengths_le : fixedSize + r.nameLength + r.extraLength ≤ r.bytes.size := by
  have hsize := h.size
  simp only [fixedSize, nameLength, extraLength]
  omega

lemma lengthsOf_eq : lengthsOf r = some (r.nameLength, r.extraLength) := by
  have hl := lengths_le h
  simp only [fixedSize] at hl
  rw [lengthsOf, u16At?_eq (by omega), u16At?_eq (by omega)]
  rfl

lemma nameOf_eq : nameOf r = some r.name := by
  have hl := lengths_le h
  rw [nameOf, lengthsOf_eq h, Option.bind_eq_bind, Option.bind_some,
    part?_eq (Nat.le_add_right _ _) (by omega)]
  rfl

lemma extraOf_eq : extraOf r = some r.extra := by
  rw [extraOf, lengthsOf_eq h, Option.bind_eq_bind, Option.bind_some,
    part?_eq (Nat.le_add_right _ _) (lengths_le h)]
  rfl

lemma commentOf_eq : commentOf r = some r.comment := by
  rw [commentOf, lengthsOf_eq h, Option.bind_eq_bind, Option.bind_some,
    part?_eq (lengths_le h) (Nat.le_refl _)]
  rfl

lemma extentsOf_eq : extentsOf r = some r.extents := by
  have hl := lengths_le h
  simp only [fixedSize] at hl
  have h32 (i : Nat) (hi : i + 4 ≤ 46) : u32At? r.bytes i = some (u32At r.bytes i) :=
    u32At?_eq (by omega)
  simp only [extentsOf, h32 24 (by decide), h32 20 (by decide), h32 42 (by decide), extraOf_eq h,
    zip64DataFrom_eq, widen_eq, Option.bind_eq_bind, Option.bind_some]
  split
  · rename_i hne
    simp [extents, widen_of_ne hne.1, widen_of_ne hne.2.1, widen_of_ne hne.2.2]
  · rfl

lemma entryOf_eq (start : ByteArray) : entryOf r start = some (.ofRecord r start) := by
  have hl := lengths_le h
  simp only [fixedSize] at hl
  have h16 (i : Nat) (hi : i + 2 ≤ 46) : u16At? r.bytes i = some (u16At r.bytes i) :=
    u16At?_eq (by omega)
  have h32 : u32At? r.bytes 16 = some (u32At r.bytes 16) := u32At?_eq (by omega)
  simp only [entryOf, packedTimeOf, nameOf_eq h, h16 10 (by decide), h16 12 (by decide),
    h16 14 (by decide), h32, extentsOf_eq h, extraOf_eq h, commentOf_eq h, Option.bind_eq_bind,
    Option.bind_some]
  rfl

end Record

lemma records_of_parse {b : ByteArray} {declared : Nat} {d : Directory}
    (h : parse b declared = .ok d) :
    d.size = declared ∧ d.records.length = declared ∧
      ∀ record ∈ d.records, recordAt? d.bytes record.offset = some record ∧
        ∀ start, entryOf record start = some (.ofRecord record start) := by
  obtain ⟨_, rs, hrs, _⟩ := (exists_parse_iff b declared).mp ⟨d, h⟩
  obtain ⟨hlength, hlists⟩ := lists_of_parse h hrs
  refine ⟨hlists.size.trans hlength, ?_, ?_⟩
  · rw [hlists.records, length_placed, hlength]
  · intro record hmem
    refine ⟨hlists.inside record hmem, fun start => ?_⟩
    rw [hlists.records] at hmem
    exact entryOf_eq (hrs.records _ (bytes_mem_of_mem_placed hmem)) start

end Fields
end JarReader.Guarded

import JarReader.Proofs.Directory.Inside
import JarReader.Proofs.Directory.Lookup

namespace JarReader.Zip.Directory

open Bytes DirectoryRecord

/-- One record: the signature, and as many bytes as its own lengths say. -/
structure IsRecord (r : ByteArray) : Prop where
  signature : r.extract 0 4 = ⟨#[0x50, 0x4B, 0x01, 0x02]⟩
  size : r.size = 46 + nameLengthAt r 0 + extraLengthAt r 0 + commentLengthAt r 0

structure ConsistsOf (b : ByteArray) (rs : List ByteArray) : Prop where
  records : ∀ r ∈ rs, IsRecord r
  joined : joined rs = b

def placed : (offset : Nat) → List ByteArray → List DirectoryRecord
  | _, [] => []
  | offset, r :: rs => ⟨offset, r⟩ :: placed (offset + r.size) rs

lemma sizeAt_extract (b : ByteArray) (offset : Nat) {size : Nat} (h : fixedSize ≤ size) :
    sizeAt (b.extract offset (offset + size)) 0 = sizeAt b offset := by
  have h16 (i : Nat) (hi : i + 2 ≤ fixedSize) :
      u16At (b.extract offset (offset + size)) (0 + i) = u16At b (offset + i) := by
    rw [Nat.zero_add, u16At_extract (by omega)]
  simp only [sizeAt, nameLengthAt, extraLengthAt, commentLengthAt]
  rw [h16 28 (by decide), h16 30 (by decide), h16 32 (by decide)]

lemma isRecord_extract_iff {b : ByteArray} {offset size : Nat} (h : offset + size ≤ b.size) :
    IsRecord (b.extract offset (offset + size)) ↔ checkRecord b offset = .ok size := by
  have hs : (b.extract offset (offset + size)).size = size := by
    rw [ByteArray.size_extract]
    omega
  have hsignature : fixedSize ≤ size →
      ((b.extract offset (offset + size)).extract 0 4 = ⟨#[0x50, 0x4B, 0x01, 0x02]⟩ ↔
        u32At b offset = DirectoryRecord.signature) := by
    intro hl
    simp only [fixedSize] at hl
    rw [u32At_eq_iff (by omega), ByteArray.extract_extract]
    have hm : min (offset + 4) (offset + size) = offset + 4 := by omega
    rw [hm, Nat.add_zero]
    rfl
  rw [checkRecord_eq_ok_iff]
  constructor
  · rintro ⟨hbytes, hsize⟩
    rw [hs] at hsize
    have hl : fixedSize ≤ size := by
      simp only [fixedSize]
      omega
    have hsizeAt := sizeAt_extract b offset hl
    refine ⟨by omega, (hsignature hl).mp hbytes, ?_, ?_⟩
    · rw [← hsizeAt, sizeAt, fixedSize]
      omega
    · rw [← hsizeAt, sizeAt, fixedSize]
      exact hsize
  · rintro ⟨_, hbytes, _, hsize⟩
    have hl : fixedSize ≤ size := by
      rw [hsize, sizeAt]
      omega
    have hsizeAt := sizeAt_extract b offset hl
    rw [← hsize, sizeAt, fixedSize] at hsizeAt
    exact ⟨(hsignature hl).mpr hbytes, hs.trans hsizeAt.symm⟩

lemma add_size_le_of_checkRecord {b : ByteArray} {offset size : Nat} (h : offset ≤ b.size)
    (hc : checkRecord b offset = .ok size) : offset + size ≤ b.size := by
  obtain ⟨_, _, hl, rfl⟩ := checkRecord_eq_ok_iff.mp hc
  omega

lemma recordAt_eq {b : ByteArray} {offset size : Nat} (h : checkRecord b offset = .ok size) :
    recordAt b offset = ⟨offset, b.extract offset (offset + size)⟩ := by
  obtain ⟨_, _, _, rfl⟩ := checkRecord_eq_ok_iff.mp h
  rfl

lemma Records.placed {b : ByteArray} {offset : Nat} {offsets : List Nat}
    (h : Records b offset offsets) (ho : offset ≤ b.size) :
    ∃ rs, ConsistsOf (b.extract offset b.size) rs ∧
      placed offset rs = offsets.map (recordAt b) := by
  induction h with
  | done hd =>
    refine ⟨[], ⟨by simp, ?_⟩, rfl⟩
    rw [Directory.joined, eq_comm, ByteArray.extract_eq_empty_iff]
    omega
  | @next offset size rest hlt hc _ ih =>
    have hend := add_size_le_of_checkRecord ho hc
    have hs : (b.extract offset (offset + size)).size = size := by
      rw [ByteArray.size_extract]
      omega
    obtain ⟨rs, hrs, hplaced⟩ := ih hend
    refine ⟨b.extract offset (offset + size) :: rs, ⟨?_, ?_⟩, ?_⟩
    · intro r hr
      rcases List.mem_cons.mp hr with rfl | hr
      · exact (isRecord_extract_iff hend).mpr hc
      · exact hrs.records r hr
    · rw [Directory.joined, hrs.joined, ← ByteArray.extract_eq_extract_append_extract]
      · omega
      · omega
    · rw [Directory.placed, hs, hplaced, List.map_cons, recordAt_eq hc]

lemma records_of_consistsOf {b : ByteArray} {offset : Nat} {rs : List ByteArray}
    (h : ConsistsOf (b.extract offset b.size) rs) (ho : offset ≤ b.size) :
    ∃ offsets, Records b offset offsets ∧ placed offset rs = offsets.map (recordAt b) := by
  induction rs generalizing offset with
  | nil =>
    have hj := h.joined
    rw [joined, eq_comm, ByteArray.extract_eq_empty_iff] at hj
    exact ⟨[], .done (by omega), rfl⟩
  | cons r rs ih =>
    have hj := h.joined
    have hsizes := congrArg ByteArray.size hj
    rw [joined, ByteArray.size_append, ByteArray.size_extract, Nat.min_self] at hsizes
    have hr := h.records r List.mem_cons_self
    have hlarge := hr.size
    -- The first record is cut off by its own size, and the others are all that follows.
    have hend : offset + r.size ≤ b.size := by omega
    rw [joined, ByteArray.extract_eq_extract_append_extract (offset + r.size) (by omega) hend] at hj
    have hfirst : r = b.extract offset (offset + r.size) := by
      apply ByteArray.append_inj_left hj
      rw [ByteArray.size_extract]
      omega
    have hrest : joined rs = b.extract (offset + r.size) b.size := by
      rwa [← hfirst, ByteArray.append_right_inj] at hj
    have hc : checkRecord b offset = .ok r.size := by
      rw [← isRecord_extract_iff hend, ← hfirst]
      exact hr
    obtain ⟨offsets, hoffsets, hplaced⟩ :=
      ih ⟨fun x hx => h.records x (List.mem_cons_of_mem _ hx), hrest⟩ hend
    refine ⟨offset :: offsets, .next (by omega) hc hoffsets, ?_⟩
    rw [placed, hplaced, List.map_cons, recordAt_eq hc, ← hfirst]

lemma Records.checked {b : ByteArray} {offset x : Nat} {offsets : List Nat}
    (h : Records b offset offsets) (ho : offset ≤ b.size) (hx : x ∈ offsets) :
    x ≤ b.size ∧ ∃ size, checkRecord b x = .ok size := by
  induction h with
  | done => cases hx
  | next _ hc _ ih =>
    rcases List.mem_cons.mp hx with rfl | hx
    · exact ⟨ho, _, hc⟩
    · exact ih (add_size_le_of_checkRecord ho hc) hx

lemma length_placed (offset : Nat) (rs : List ByteArray) :
    (placed offset rs).length = rs.length := by
  induction rs generalizing offset with
  | nil => rfl
  | cons r rs ih => rw [placed, List.length_cons, ih, List.length_cons]

lemma bytes_mem_of_mem_placed {offset : Nat} {rs : List ByteArray} {r : DirectoryRecord}
    (h : r ∈ placed offset rs) : r.bytes ∈ rs := by
  induction rs generalizing offset with
  | nil => cases h
  | cons x rs ih =>
    rcases List.mem_cons.mp h with rfl | h
    · exact List.mem_cons_self
    · exact List.mem_cons_of_mem _ (ih h)

structure Divided (r : DirectoryRecord) : Prop where
  name : r.name.size = r.nameLength
  extra : r.extra.size = r.extraLength
  comment : r.comment.size = commentLengthAt r.bytes 0
  rest : r.name ++ r.extra ++ r.comment = r.bytes.extract 46 r.bytes.size

lemma IsRecord.divided {r : DirectoryRecord} (h : IsRecord r.bytes) : Divided r := by
  have hsize := h.size
  have hname : fixedSize + r.nameLength ≤ r.bytes.size := by
    simp only [fixedSize, nameLength]
    omega
  have hextra : fixedSize + r.nameLength + r.extraLength ≤ r.bytes.size := by
    simp only [fixedSize, nameLength, extraLength]
    omega
  refine ⟨?_, ?_, ?_, ?_⟩
  · rw [DirectoryRecord.name, ByteArray.size_extract]
    omega
  · rw [DirectoryRecord.extra, ByteArray.size_extract]
    omega
  · rw [DirectoryRecord.comment, ByteArray.size_extract]
    simp only [fixedSize, nameLength, extraLength]
    omega
  · rw [DirectoryRecord.name, DirectoryRecord.extra, DirectoryRecord.comment,
      ← ByteArray.extract_eq_extract_append_extract _ (by omega) (by omega),
      ← ByteArray.extract_eq_extract_append_extract _ (by omega) (by omega)]
    rfl

lemma record?_eq (d : Directory) (i : Nat) : d.record? i = d.records[i]? := by
  simp [record?, records]

lemma offsetsFrom_error {b : ByteArray} {declared offset : Nat} {found : Array Nat}
    {fault : FormatFault} (h : offsetsFrom b declared offset found = .error fault) :
    (∃ offset cause, fault = .directory offset cause) ∨
      ∃ count, fault = .entryCount declared count := by
  fun_induction offsetsFrom b declared offset found with
  | case1 => cases h; exact .inr ⟨_, rfl⟩
  | case2 offset found _ _ fault hc =>
    cases h
    rw [checkRecord] at hc
    split at hc
    · cases hc; exact .inl ⟨_, _, rfl⟩
    · split at hc
      · cases hc; exact .inl ⟨_, _, rfl⟩
      · split at hc
        · cases hc; exact .inl ⟨_, _, rfl⟩
        · cases hc
  | case3 _ _ _ _ _ _ ih => exact ih h
  | case4 => cases h
  | case5 => cases h; exact .inr ⟨_, rfl⟩

lemma parse_error {b : ByteArray} {declared : Nat} {fault : FormatFault}
    (h : parse b declared = .error fault) :
    (∃ offset cause, fault = .directory offset cause) ∨
      ∃ count, fault = .entryCount declared count := by
  rw [parse] at h
  split at h
  · cases h
    exact .inl ⟨_, _, rfl⟩
  · split at h
    · rename_i hf
      cases h
      exact offsetsFrom_error hf
    · cases h

lemma ConsistsOf.exists_offsets {b : ByteArray} {rs : List ByteArray} (h : ConsistsOf b rs) :
    ∃ offsets, Records b 0 offsets ∧ placed 0 rs = offsets.map (recordAt b) := by
  have hb : b.extract 0 b.size = b := ByteArray.extract_zero_size
  rw [← hb] at h
  exact records_of_consistsOf h (Nat.zero_le _)

lemma exists_parse_iff (b : ByteArray) (declared : Nat) :
    (∃ d, parse b declared = .ok d) ↔
      declared < 2 ^ 32 - 1 ∧ ∃ rs, ConsistsOf b rs ∧ rs.length = declared := by
  constructor
  · rintro ⟨d, h⟩
    obtain ⟨hd, offsets, hr, hl, _⟩ := parse_eq_ok_iff.mp h
    obtain ⟨rs, hrs, hplaced⟩ := hr.placed (Nat.zero_le _)
    rw [ByteArray.extract_zero_size] at hrs
    refine ⟨hd, rs, hrs, ?_⟩
    rw [← length_placed 0, hplaced, List.length_map, hl]
  · rintro ⟨hd, rs, hrs, rfl⟩
    obtain ⟨offsets, hr, hplaced⟩ := hrs.exists_offsets
    refine ⟨_, parse_eq_ok_iff.mpr ⟨hd, offsets, hr, ?_, rfl⟩⟩
    rw [← length_placed 0, hplaced, List.length_map]

structure Lists (d : Directory) (rs : List ByteArray) : Prop where
  size : d.size = rs.length
  records : d.records = placed 0 rs
  record? : ∀ i, d.record? i = (placed 0 rs)[i]?
  inside : ∀ r ∈ d.records, recordAt? d.bytes r.offset = some r
  divided : ∀ r ∈ d.records, Divided r

lemma lists_of_parse {b : ByteArray} {declared : Nat} {d : Directory}
    (h : parse b declared = .ok d) {rs : List ByteArray} (hrs : ConsistsOf b rs) :
    rs.length = declared ∧ Lists d rs := by
  obtain ⟨offsets, hr, hl, rfl, hi⟩ := indexed_of_parse h
  obtain ⟨offsets', hr', hplaced⟩ := hrs.exists_offsets
  rw [← hr.unique hr'] at hplaced
  have hrecords : d.records = placed 0 rs := (records_eq hi).trans hplaced.symm
  refine ⟨?_, ?_, hrecords, fun i => ?_, ?_, ?_⟩
  · rw [← length_placed 0, hplaced, List.length_map, hl]
  · rw [← length_placed 0, ← hrecords]
    simp [size, records]
  · rw [record?_eq, hrecords]
  · intro r hmem
    rw [records_eq hi, List.mem_map] at hmem
    obtain ⟨offset, ho, rfl⟩ := hmem
    obtain ⟨hle, size, hc⟩ := hr.checked (Nat.zero_le _) ho
    exact recordAt?_eq hle hc
  · intro r hmem
    rw [hrecords] at hmem
    exact (hrs.records _ (bytes_mem_of_mem_placed hmem)).divided

/-- The bytes that are accepted are the concatenations of as many records as are declared, and these
are what is listed; other bytes are refused, and none outside is read. -/
theorem parse_accepts_iff (b : ByteArray) (declared : Nat) :
    ((∃ d, parse b declared = .ok d) ↔
        declared < 2 ^ 32 - 1 ∧ ∃ rs, ConsistsOf b rs ∧ rs.length = declared) ∧
      (∀ d rs, parse b declared = .ok d → ConsistsOf b rs →
        rs.length = declared ∧ Lists d rs) ∧
      (∀ fault, parse b declared = .error fault →
        (∃ offset cause, fault = .directory offset cause) ∨
          ∃ found, fault = .entryCount declared found) ∧
      parse? b declared = some (parse b declared) := by
  refine ⟨exists_parse_iff b declared, ?_, ?_, parse?_eq b declared⟩
  · intro d rs hparse hrs
    exact lists_of_parse hparse hrs
  · intro fault hparse
    exact parse_error hparse

end JarReader.Zip.Directory

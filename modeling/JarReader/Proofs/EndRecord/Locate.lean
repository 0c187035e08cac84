import JarReader.Proofs.EndRecord.Search

namespace JarReader.Zip.EndRecord

open Bytes View

section Archive

variable {r : EndRecord} {v w : View}

lemma archive_eq (h : r.archiveStart ≤ v.length) : r.archive v =
    .ok { v with start := v.start + r.archiveStart, length := v.length - r.archiveStart } := by
  rw [archive, if_pos h, View.part, if_pos (by omega)]

lemma archive_eq_overflow (h : v.length < r.archiveStart) : r.archive v = .error .overflow :=
  if_neg (by omega)

lemma archive_eq_ok_iff : r.archive v = .ok w ↔ r.archiveStart ≤ v.length ∧
    { v with start := v.start + r.archiveStart, length := v.length - r.archiveStart } = w := by
  by_cases h : r.archiveStart ≤ v.length
  · simp [archive_eq h, h]
  · simp [archive_eq_overflow (Nat.lt_of_not_le h), h]

lemma part_of_archive (h : r.archive v = .ok w) :
    v.part r.archiveStart (v.length - r.archiveStart) = .ok w := by
  rwa [archive, if_pos (archive_eq_ok_iff.mp h).1] at h

end Archive

section Alike

variable {d : Disk} {v w : View} (h : Alike d v w)
include h

lemma zip64Record?_alike (endOffset : Nat) :
    zip64Record? d v endOffset = zip64Record? d w endOffset := by
  simp only [zip64Record?, zip64RecordAt, h.readExact]

lemma decode_alike (endOffset : Nat) (record : ByteArray) :
    decode d v endOffset record = decode d w endOffset record := by
  simp only [decode, zip64Record?_alike h]

lemma locate_alike : locate d v = locate d w := by
  simp only [locate, locateIn, h.length, h.readExact, decode_alike h]

lemma archive_alike (r : EndRecord) : Matched (Alike d) (r.archive v) (r.archive w) := by
  simp only [archive, h.length]
  by_cases hl : r.archiveStart ≤ w.length
  · rw [if_pos hl, if_pos hl]
    exact h.part _ _
  · rw [if_neg hl, if_neg hl]
    exact .error _

lemma readDirectory_alike (r : EndRecord) : r.readDirectory d v = r.readDirectory d w :=
  (h.part _ _).bind_eq fun _ _ hp => hp.readExact _ _

end Alike

variable {d : Disk} {v : View}

lemma search_extract {b : ByteArray} {first : Nat} (h : first ≤ b.size) :
    search (b.extract first b.size) =
      (search b).bind fun i => if first ≤ i then some (i - first) else none := by
  cases hs : search b with
  | none =>
    rw [search_eq_none_iff] at hs
    rw [Option.bind_none, search_eq_none_iff]
    intro i
    rw [fitsAt_extract h, hs]
  | some i =>
    obtain ⟨hf, hlater⟩ := search_eq_some_iff.mp hs
    by_cases hi : first ≤ i
    · rw [Option.bind_some, if_pos hi, search_eq_some_iff]
      refine ⟨?_, fun j hj => ?_⟩
      · rwa [fitsAt_extract h, Nat.add_sub_cancel' hi]
      · rw [fitsAt_extract h]
        exact hlater _ (by omega)
    · rw [Option.bind_some, if_neg hi, search_eq_none_iff]
      intro j
      rw [fitsAt_extract h]
      exact hlater _ (by omega)

lemma locateIn_eq (hv : v.Whole d) {window : Nat} (hw : window ≤ v.length) :
    locateIn d v window =
      match search (v.bytes d) with
      | some i =>
        if v.length - window ≤ i then
          some <$> decode d v i ((v.bytes d).extract i v.length)
        else .ok none
      | none => .ok none := by
  have hb : v.readExact d (v.length - window) window =
      .ok ((v.bytes d).extract (v.length - window) v.length) := by
    rw [hv.readExact_eq (by omega), Nat.sub_add_cancel hw]
  have hfirst : v.length - window ≤ (v.bytes d).size := by
    rw [hv.size_bytes]
    omega
  have hs := search_extract hfirst
  rw [hv.size_bytes] at hs
  simp only [locateIn, hb, hs, bind, Except.bind]
  cases search (v.bytes d) with
  | none => rfl
  | some i =>
    by_cases hi : v.length - window ≤ i
    · simp only [Option.bind_some, if_pos hi, Nat.add_sub_cancel' hi, ByteArray.size_extract,
        ByteArray.extract_extract, hv.size_bytes]
      congr 3
      omega
    · simp only [Option.bind_some, if_neg hi]
      rfl

lemma locate_eq (hv : v.Whole d) :
    locate d v =
      match search (v.bytes d) with
      | some i => decode d v i ((v.bytes d).extract i v.length)
      | none => .error (.format .missingEndRecord) := by
  simp only [locate]
  rw [locateIn_eq hv (by omega), locateIn_eq hv (by omega)]
  cases hs : search (v.bytes d) with
  | none =>
    simp only [bind, Except.bind]
    split <;> rfl
  | some i =>
    have hl : v.length ≤ i + longWindow := by
      simpa only [hv.size_bytes] using (size_of_fitsAt (search_eq_some_iff.mp hs).1).2
    have hlong : v.length - min longWindow v.length ≤ i := by omega
    dsimp only
    by_cases hshort : v.length - min shortWindow (min longWindow v.length) ≤ i
    · rw [if_pos hshort]
      cases decode d v i ((v.bytes d).extract i v.length) <;> rfl
    · have hne : min shortWindow (min longWindow v.length) ≠ min longWindow v.length := by omega
      rw [if_neg hshort, if_pos hlong]
      simp only [bind, Except.bind, if_pos hne]
      cases decode d v i ((v.bytes d).extract i v.length) <;> rfl

end JarReader.Zip.EndRecord

import JarReader.Proofs.EndRecord.Decode
import JarReader.Zip.Metadata

namespace JarReader.Zip

open View

variable {d : Disk}

lemma Metadata.read_alike {v w : View} (h : v.Alike d w) :
    Metadata.read d v = Metadata.read d w := by
  simp only [Metadata.read, EndRecord.locate_alike h]
  congr 1
  funext r
  refine (EndRecord.archive_alike h r).bind_eq fun _ _ ha => ?_
  rw [EndRecord.readDirectory_alike ha]

lemma EndRecord.readDirectory_eq_ok_iff {r : EndRecord} {archive : View} (ha : archive.Whole d)
    {bytes : ByteArray} :
    r.readDirectory d archive = .ok bytes ↔
      r.directoryOffset + r.directorySize ≤ archive.length ∧
        bytes = (archive.bytes d).extract r.directoryOffset
          (r.directoryOffset + r.directorySize) := by
  simp only [readDirectory, bind, Except.bind]
  cases hp : archive.part r.directoryOffset r.directorySize with
  | error f =>
    have hl : ¬ r.directoryOffset + r.directorySize ≤ archive.length := by
      intro hl
      rw [part, if_pos hl] at hp
      cases hp
    simp [hl]
  | ok view =>
    have hb := bytes_part (d := d) hp
    have hs := length_part hp
    simp only
    rw [(ha.part hp).readExact_eq (by omega), hb, ByteArray.extract_extract]
    have hm : min (r.directoryOffset + (0 + r.directorySize))
        (r.directoryOffset + r.directorySize) = r.directoryOffset + r.directorySize := by omega
    rw [hm, Nat.add_zero, Except.ok.injEq]
    exact ⟨fun h => ⟨le_length_of_part hp, h.symm⟩, fun h => h.2.symm⟩

lemma Metadata.read_eq_ok_iff {v : View} {m : Metadata} :
    Metadata.read d v = .ok m ↔
      ∃ archive bytes, EndRecord.locate d v = .ok m.endRecord ∧
        m.endRecord.archive v = .ok archive ∧
        m.endRecord.readDirectory d archive = .ok bytes ∧
        Directory.parse bytes m.endRecord.entries = .ok m.directory := by
  obtain ⟨r, directory⟩ := m
  simp only [read, bind, Except.bind]
  cases hl : EndRecord.locate d v with
  | error f => simp
  | ok r' =>
    simp only [Except.ok.injEq]
    constructor
    · intro h
      split at h
      · cases h
      · rename_i archive ha
        split at h
        · cases h
        · rename_i bytes hb
          split at h
          · rename_i directory' hp
            cases h
            exact ⟨archive, bytes, rfl, ha, hb, hp⟩
          · cases h
    · rintro ⟨archive, bytes, rfl, ha, hb, hp⟩
      simp only [ha, hb, hp, pure, Except.pure]

end JarReader.Zip

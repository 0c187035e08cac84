import JarReader.Proofs.EndRecord.Scan
import JarReader.Proofs.Metadata

namespace JarReader.Zip.EndRecord

open Bytes View

variable {d : Disk} {v : View} {r : EndRecord} {e : Nat}

lemma exists_archive (hv : v.Whole d) (he : e ≤ v.length)
    (hsum : r.archiveStart + r.directoryOffset + r.directorySize = e) :
    ∃ a, r.archive v = .ok a ∧ a.length = v.length - r.archiveStart ∧
      r.readDirectory d a = .ok ((v.bytes d).extract (e - r.directorySize) e) := by
  have ha := archive_eq (r := r) (v := v) (by omega)
  have hp := part_of_archive ha
  refine ⟨_, ha, rfl, ?_⟩
  rw [readDirectory_eq_ok_iff (hv.part hp), bytes_part hp, ByteArray.extract_extract]
  constructor
  · dsimp only
    omega
  · congr 1
    · omega
    · omega

end JarReader.Zip.EndRecord

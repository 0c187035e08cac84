import JarReader.Proofs.Guarded.Directory
import JarReader.Proofs.Guarded.EndRecord
import JarReader.Proofs.Jar.Opening
import JarReader.Zip.Writing

namespace JarReader

open Zip EndRecord View

namespace Guarded

def jar (d : Disk) (data : View) (root pathFromRoot : String) (kind : JarKind) : Guarded Jar := do
  let endRecord ← locate d data
  let view ← archive endRecord data
  let bytes ← readDirectory d endRecord view
  let directory ← directory bytes endRecord.entries
  let view ← archive endRecord data
  return {
    root := root
    pathFromRoot := pathFromRoot
    kind := kind
    archive := view
    endRecord := endRecord
    directory := directory
    start := .empty
    opening := 0 }

variable {d : Disk} {v : View}

lemma meets_jar (hv : Sound d v) (root path : String) (kind : JarKind) :
    Meets (jar d v root path kind) (Jar.ofView d v root path kind) := by
  have hs := hv.length_lt
  rw [jar, Jar.ofView, Metadata.read, bind_assoc]
  refine .bind (meets_locate hv) fun r hr => ?_
  obtain ⟨e, hstands, hsum⟩ := exists_standsAt hv.whole hr
  have he := le_size_of_standsAt hstands
  rw [hv.whole.size_bytes] at he
  obtain ⟨a, ha, hlength, hbytes⟩ := exists_archive hv.whole (by omega) hsum
  have hview : archive r v = pure a := archive_eq hv (by omega) ha
  have hsound : Sound d a := hv.part (part_of_archive ha)
  have hsize : ((v.bytes d).extract (e - r.directorySize) e).size < UInt64.size := by
    rw [ByteArray.size_extract, hv.whole.size_bytes]
    omega
  have hrun := run_directory hsize r.entries
  rw [hview, pure_bind, readDirectory_eq hsound hbytes, pure_bind, ha]
  simp only [bind, Except.bind, hbytes]
  cases hp : Directory.parse ((v.bytes d).extract (e - r.directorySize) e) r.entries with
  | error fault =>
    rw [hp] at hrun
    rw [eq_throw hrun]
    exact .throw (ofOpening_of_parse hp)
  | ok directory =>
    rw [hp] at hrun
    rw [eq_pure hrun]
    simp only [Jar.ofMetadata, ha, bind, Except.bind, pure, Except.pure]
    exact .pure _

end Guarded

namespace Jar

/-- Opening gives a jar or a fault of the end record or the directory, without a reading outside the
bytes and without a sum or difference that wraps. An end record that is located has its archive, and
its directory right before the record that describes it; a jar lists as many records as are
declared, each with all its fields. -/
theorem ofData_guarded {b : ByteArray} (hb : b.size < 2 ^ 64) (d : Disk) (root : String) :
    Guarded.Meets (Guarded.jar d (.ofBytes b) root "" .direct) (ofData d (.ofBytes b) root) ∧
      (∀ r, locate d (.ofBytes b) = .ok r → ∃ e archive, StandsAt b r e ∧
        r.archiveStart + r.directoryOffset + r.directorySize = e ∧
        r.archive (.ofBytes b) = .ok archive ∧
        r.readDirectory d archive = .ok (b.extract (e - r.directorySize) e)) ∧
      (∀ j, ofData d (.ofBytes b) root = .ok j →
        j.directory.size = j.endRecord.entries ∧ j.entries.length = j.endRecord.entries ∧
        ∀ record ∈ j.records, Directory.recordAt? j.directory.bytes record.offset = some record ∧
          Guarded.entryOf record j.start = some (.ofRecord record j.start)) := by
  have hv : Guarded.Sound d (.ofBytes b) := ⟨whole_ofBytes d b, hb⟩
  refine ⟨Guarded.meets_jar hv root "" .direct, ?_, ?_⟩
  · intro r hr
    obtain ⟨e, hstands, hsum⟩ := exists_standsAt hv.whole hr
    have he := le_size_of_standsAt hstands
    rw [bytes_ofBytes] at hstands he
    obtain ⟨archive, ha, _, hbytes⟩ :=
      exists_archive hv.whole (by rw [length_ofBytes]; omega) hsum
    rw [bytes_ofBytes] at hbytes
    exact ⟨e, archive, hstands, hsum, ha, hbytes⟩
  · intro j hj
    obtain ⟨m, archive, hm, _, rfl⟩ := ofView_eq_ok_iff.mp hj
    obtain ⟨_, bytes, _, _, _, hparse⟩ := Metadata.read_eq_ok_iff.mp hm
    obtain ⟨hsize, hlength, hrecords⟩ := Guarded.records_of_parse hparse
    refine ⟨hsize, ?_, fun record hmem => ?_⟩
    · rw [entries_of_start rfl, List.length_map]
      exact hlength
    · obtain ⟨hinside, hfields⟩ := hrecords record (List.mem_filter.mp hmem).1
      exact ⟨hinside, hfields _⟩

def shiftedBytes : ByteArray :=
  "#!".toUTF8 ++ (Archive.mk [⟨"a".toUTF8, "x".toUTF8, .empty, 0⟩] .empty true).bytes

theorem ofData_guarded_shiftedBytes :
    shiftedBytes.size < 2 ^ 64 ∧
      Guarded.Meets (Guarded.jar (.empty []) (.ofBytes shiftedBytes) "s.jar" "" .direct)
        (ofData (.empty []) (.ofBytes shiftedBytes) "s.jar") ∧
      ∃ j, ofData (.empty []) (.ofBytes shiftedBytes) "s.jar" = .ok j ∧
        j.endRecord.archiveStart = 2 ∧ j.entries.length = j.endRecord.entries ∧
        ∃ e, StandsAt shiftedBytes j.endRecord e ∧
          2 + j.endRecord.directoryOffset + j.endRecord.directorySize = e := by
  have hb : shiftedBytes.size < 2 ^ 64 := by decide +kernel
  have hs : (ofData (.empty []) (.ofBytes shiftedBytes) "s.jar").toOption.any
      (·.endRecord.archiveStart = 2) = true := by decide +kernel
  obtain ⟨j, hj, hs⟩ := exists_eq_ok_of_any hs
  rw [decide_eq_true_eq] at hs
  obtain ⟨hmeets, hlocated, hopened⟩ := ofData_guarded hb (.empty []) "s.jar"
  obtain ⟨m, _, hm, _, rfl⟩ := ofView_eq_ok_iff.mp hj
  obtain ⟨_, _, hlocate, _⟩ := Metadata.read_eq_ok_iff.mp hm
  obtain ⟨e, _, hstands, hsum, _⟩ := hlocated m.endRecord hlocate
  dsimp only at hs
  rw [hs] at hsum
  exact ⟨hb, hmeets, _, hj, hs, (hopened _ hj).2.1, e, hstands, hsum⟩

end Jar
end JarReader

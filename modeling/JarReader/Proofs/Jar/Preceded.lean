import JarReader.Proofs.Directory.Records
import JarReader.Proofs.EndRecord.Preceded
import JarReader.Proofs.Jar.Likeness
import JarReader.Zip.Writing

namespace JarReader

open Zip EndRecord

lemma Zip.Metadata.entries_mul_le {d : Disk} {a : ByteArray} {m : Metadata}
    (h : Metadata.read d (.ofBytes a) = .ok m) :
    m.endRecord.entries * DirectoryRecord.fixedSize ≤ m.endRecord.directorySize := by
  obtain ⟨archive, bytes, _, ha, hb, hp⟩ := Metadata.read_eq_ok_iff.mp h
  have hw := (View.whole_ofBytes d a).part (part_of_archive ha)
  obtain ⟨_, rfl⟩ := (readDirectory_eq_ok_iff hw).mp hb
  refine Nat.le_trans (Directory.count_mul_le_of_parse hp) ?_
  rw [ByteArray.size_extract]
  omega

lemma Zip.Metadata.read_append {d : Disk} {a : ByteArray} {m : Metadata} (p : ByteArray)
    (h : Metadata.read d (.ofBytes a) = .ok m)
    (hwide : m.endRecord.zip64 = true → WideAdjacent d a) :
    Metadata.read d (.ofBytes (p ++ a)) = .ok ⟨m.endRecord.preceded p.size, m.directory⟩ := by
  have hcount := Metadata.entries_mul_le h
  obtain ⟨archive, bytes, hl, ha, hb, hp⟩ := Metadata.read_eq_ok_iff.mp h
  obtain ⟨archive', ha', hv⟩ := archive_append (d := d) p ha
  refine Metadata.read_eq_ok_iff.mpr
    ⟨archive', bytes, locate_append p hl hcount hwide, ha', ?_, hp⟩
  rw [← hb]
  exact (readDirectory_alike hv m.endRecord).symm

namespace Jar

/-- With bytes in front, an archive opens as the same jar; only its start is moved. -/
theorem ofData_append {d : Disk} {a : ByteArray} {root : String} {j : Jar}
    (h : ofData d (.ofBytes a) root = .ok j) (hwide : j.endRecord.zip64 = true → WideAdjacent d a)
    (p : ByteArray) :
    ∃ k, ofData d (.ofBytes (p ++ a)) root = .ok k ∧ k.Placed j.root j.pathFromRoot j.kind ∧
      Same d p.size j k := by
  obtain ⟨m, archive, hm, ha, rfl⟩ := ofView_eq_ok_iff.mp h
  obtain ⟨archive', ha', hv⟩ := archive_append (d := d) p ha
  refine ⟨_, ofView_eq_ok_iff.mpr ⟨_, archive', Metadata.read_append p hm hwide, ha', rfl⟩,
    ⟨rfl, rfl, rfl⟩, ?_⟩
  exact Alike.sameTo ⟨hv, rfl, rfl, rfl, Iff.rfl⟩

def wideBytes : ByteArray :=
  (Archive.mk [⟨"a".toUTF8, "x".toUTF8, .empty, 0⟩] .empty true).bytes

def signatures : ByteArray := ⟨#[0x50, 0x4B, 0x06, 0x07, 0x50, 0x4B, 0x05, 0x06]⟩

lemma wideAdjacent_wideBytes : WideAdjacent (.empty []) wideBytes := by
  intro i wide o hi hz
  have hs : search wideBytes = some 155 := by decide +kernel
  obtain rfl : 155 = i := by simpa [hs] using search_eq_some_iff.mpr hi
  have ho : (zip64Record? (.empty []) (.ofBytes wideBytes) 155).toOption.all
      (·.all fun found => found.2 + Zip64Record.size + Zip64Locator.size = 155) = true := by decide +kernel
  simpa [hz, Except.toOption] using ho

theorem ofData_append_wideBytes :
    ∃ j, ofData (.empty []) (.ofBytes wideBytes) "w.jar" = .ok j ∧
      j.endRecord.zip64 = true ∧ WideAdjacent (.empty []) wideBytes ∧
      j.endRecord.archiveStart = 0 ∧ j.entries.map Entry.name = ["a"] ∧
      j.content? (.empty []) "a" = .ok (some "x".toUTF8) ∧
      ∃ k, ofData (.empty []) (.ofBytes (signatures ++ wideBytes)) "w.jar" = .ok k ∧
        k.endRecord.archiveStart = 8 ∧ k.entries.map Entry.name = ["a"] ∧
        k.content? (.empty []) "a" = .ok (some "x".toUTF8) ∧
        k.Placed j.root j.pathFromRoot j.kind ∧ Same (.empty []) 8 j k := by
  have hs : (ofData (.empty []) (.ofBytes wideBytes) "w.jar").toOption.any (fun j =>
      j.endRecord.zip64 && j.endRecord.archiveStart = 0 && j.entries.map Entry.name = ["a"] &&
        (j.content? (.empty []) "a").toOption.any (· = some "x".toUTF8)) = true := by decide +kernel
  obtain ⟨j, h, hs⟩ := exists_eq_ok_of_any hs
  simp only [Bool.and_eq_true, decide_eq_true_eq] at hs
  obtain ⟨⟨⟨hz, hstart⟩, hnames⟩, hcontent⟩ := hs
  obtain ⟨content, hcontent, hx⟩ := exists_eq_ok_of_any hcontent
  obtain rfl := of_decide_eq_true hx
  obtain ⟨k, hk, hplaced, hsame⟩ := ofData_append h (fun _ => wideAdjacent_wideBytes) signatures
  have hshows : ShowsSame (.empty []) 8 j k := hsame 0
  refine ⟨j, h, hz, wideAdjacent_wideBytes, hstart, hnames, hcontent, k, hk, ?_, ?_, ?_, hplaced,
    hsame⟩
  · rw [hshows.endRecord, preceded, hstart]
  · rw [hshows.entries, hnames]
  · rw [hshows.content?, hcontent]

end Jar
end JarReader

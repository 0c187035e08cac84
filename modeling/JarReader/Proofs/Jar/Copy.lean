import JarReader.Proofs.Jar.Likeness
import JarReader.Proofs.Writing.Reading
import JarReader.System.Basic

/-! A jar in a stored entry of another jar is the jar that a copy of the entry's data in memory is:
both fail alike, or both show the same, and so do the jars in them, at every depth. -/

namespace JarReader

open Zip

inductive View.Reached (d : Disk) : View → Prop
  | memory (bytes : ByteArray) : Reached d (ofBytes bytes)
  | file {path : String} {v : View} : openFile d path = .ok v → Reached d v
  | part {v w : View} {offset length : Nat} : Reached d v → v.part offset length = .ok w →
      Reached d w

lemma View.Reached.whole {d : Disk} {v : View} (h : v.Reached d) : v.Whole d := by
  induction h with
  | memory bytes => exact whole_ofBytes d bytes
  | file hv => exact whole_openFile hv
  | part _ hw ih => exact ih.part hw

namespace Jar

/-- The jars that can be had: from a file, with or without what is held of it, from any view, in
another jar, and numbered anew. -/
inductive Opened (d : Disk) : Jar → Prop
  | file {s s' : System} {useCache : Bool} {path : String} {j : Jar} : s.disk = d →
      s.openJar useCache path = (.ok j, s') → Opened d j
  | data {v : View} {root : String} {j : Jar} : v.Reached d → ofData d v root = .ok j → Opened d j
  | nested {j k : Jar} {entry : Entry} : Opened d j → j.nested d entry = .ok k → Opened d k
  | numbered {j : Jar} (n : Nat) : Opened d j → Opened d { j with opening := n }

lemma whole_ofMetadata {d : Disk} {m : Metadata} {v : View} {root path : String} {kind : JarKind}
    {j : Jar} (hv : v.Whole d) (h : ofMetadata m v root path kind = .ok j) :
    j.archive.Whole d := by
  obtain ⟨archive, ha, rfl⟩ := ofMetadata_eq_ok_iff.mp h
  exact hv.part (Zip.EndRecord.part_of_archive ha)

lemma whole_ofView {d : Disk} {v : View} {root path : String} {kind : JarKind} {j : Jar}
    (hv : v.Whole d) (h : ofView d v root path kind = .ok j) : j.archive.Whole d := by
  obtain ⟨m, archive, _, ha, rfl⟩ := ofView_eq_ok_iff.mp h
  exact hv.part (Zip.EndRecord.part_of_archive ha)

lemma whole_entryData {d : Disk} {j : Jar} {entry : Entry} {v : View} (hj : j.archive.Whole d)
    (h : j.entryData d entry = .ok v) : v.Whole d := by
  obtain ⟨_, _, _, _, hp⟩ := entryData_eq_ok_iff.mp h
  exact hj.part hp

lemma exists_ofMetadata_of_openJar {s s' : System} {useCache : Bool} {path : String} {j : Jar}
    (h : s.openJar useCache path = (.ok j, s')) :
    ∃ v metadata k n, View.openFile s.disk path = .ok v ∧
      ofMetadata metadata v path "" .direct = .ok k ∧ j = { k with opening := n } := by
  rw [System.openJar] at h
  split at h
  · cases h
  · rename_i v hv
    split at h
    · cases h
    · split at h
      · cases h
      · rename_i k hk
        cases h
        exact ⟨v, _, k, _, hv, hk, rfl⟩

lemma nested_eq_ok_iff {d : Disk} {j k : Jar} {entry : Entry} :
    j.nested d entry = .ok k ↔
      (entry.isDirectory = true ∧ k = j.nestedDirectory entry) ∨
        (entry.isDirectory = false ∧ entry.method = .stored ∧
          ∃ data, j.entryData d entry = .ok data ∧
            ofView d data j.root (j.pathFromRoot ++ Url.separator ++ entry.name) .nestedJar =
              .ok k) := by
  simp only [Jar.nested, bind, Except.bind]
  cases hdirectory : entry.isDirectory with
  | true => simp [eq_comm]
  | false =>
    by_cases hstored : entry.method = .stored
    · cases hdata : j.entryData d entry <;> simp [hstored]
    · simp [hstored]

lemma whole_openJar {s s' : System} {useCache : Bool} {path : String} {j : Jar}
    (h : s.openJar useCache path = (.ok j, s')) : j.archive.Whole s.disk := by
  obtain ⟨v, _, k, _, hv, hk, rfl⟩ := exists_ofMetadata_of_openJar h
  have hw := whole_ofMetadata (View.whole_openFile hv) hk
  exact hw

lemma whole_nested {d : Disk} {j k : Jar} {entry : Entry} (hj : j.archive.Whole d)
    (h : j.nested d entry = .ok k) : k.archive.Whole d := by
  obtain ⟨_, rfl⟩ | ⟨_, _, _, hdata, hk⟩ := nested_eq_ok_iff.mp h
  · exact hj
  · exact whole_ofView (whole_entryData hj hdata) hk

lemma Opened.whole {d : Disk} {j : Jar} (h : j.Opened d) : j.archive.Whole d := by
  induction h with
  | file hs hj => exact hs ▸ whole_openJar hj
  | data hv hj => exact whole_ofView hv.whole hj
  | nested _ hk ih => exact whole_nested ih hk
  | numbered _ _ ih => exact ih

/-- Opening the jar in a stored entry comes to the same as opening a copy of the entry's data in
memory. -/
theorem nested_same_as_copy {d : Disk} {j : Jar} {entry : Entry} {data : View} (hj : j.Opened d)
    (hdirectory : entry.isDirectory = false) (hstored : entry.method = .stored)
    (hdata : j.entryData d entry = .ok data) (root : String) :
    Matched (Same d 0) (j.nested d entry) (ofData d (.ofBytes (data.bytes d)) root) := by
  have hv := (whole_entryData hj.whole hdata).alike_ofBytes
  have hn : j.nested d entry =
      ofView d data j.root (j.pathFromRoot ++ Url.separator ++ entry.name) .nestedJar := by
    simp [Jar.nested, hdirectory, hstored, hdata, bind, Except.bind]
  rw [hn]
  refine (ofView_alike hv _ root _ "" (by simp)).mono ?_
  rintro i k ⟨hik, _, _⟩
  exact hik.sameTo

def nestedArchive : Archive :=
  ⟨[⟨"in".toUTF8, (Archive.mk [⟨"a".toUTF8, "x".toUTF8, .empty, 0⟩] .empty false).bytes, .empty, 0⟩],
    .empty, false⟩

lemma writable_nestedArchive : nestedArchive.Writable :=
  Archive.writable_of_comment_empty rfl (by simp [nestedArchive]) (by decide +kernel)

def nestedBytes : ByteArray := nestedArchive.bytes

theorem nested_same_as_copy_nestedBytes :
    ∃ (j k : Jar) (entry : Entry) (data : View),
      ofData (.empty []) (.ofBytes nestedBytes) "n.jar" = .ok j ∧ j.Opened (.empty []) ∧
      j.entries.map Entry.name = ["in"] ∧ entry ∈ j.entries ∧ entry.isDirectory = false ∧
      entry.method = .stored ∧ j.entryData (.empty []) entry = .ok data ∧
      j.nested (.empty []) entry = .ok k ∧ k.entries.map Entry.name = ["a"] ∧
      k.content? (.empty []) "a" = .ok (some "x".toUTF8) ∧
      Matched (Same (.empty []) 0) (j.nested (.empty []) entry)
        (ofData (.empty []) (.ofBytes (data.bytes (.empty []))) "copy.jar") := by
  obtain ⟨j, hj, hs⟩ : ∃ j, ofData (.empty []) (.ofBytes nestedBytes) "n.jar" = .ok j ∧
      (j.entries.map Entry.name = ["in"] && j.entries.any fun entry =>
        !entry.isDirectory && entry.method = .stored &&
          (j.nested (.empty []) entry).toOption.any fun k =>
            k.entries.map Entry.name = ["a"] &&
              (k.content? (.empty []) "a").toOption.any (· = some "x".toUTF8)) = true := by
    apply writable_nestedArchive.exists_ofData
    decide +kernel
  simp only [List.any_eq_true, Bool.and_eq_true, Bool.not_eq_true', decide_eq_true_eq] at hs
  obtain ⟨hnames, entry, hentry, ⟨hdirectory, hstored⟩, hk⟩ := hs
  obtain ⟨k, hk, hinner⟩ := exists_eq_ok_of_any hk
  rw [Bool.and_eq_true, decide_eq_true_eq] at hinner
  obtain ⟨content, hcontent, hx⟩ := exists_eq_ok_of_any hinner.2
  obtain ⟨hdirectory', _⟩ | ⟨_, _, data, hdata, _⟩ := nested_eq_ok_iff.mp hk
  · cases hdirectory.symm.trans hdirectory'
  · have ho : j.Opened (.empty []) := .data (.memory nestedBytes) hj
    exact ⟨j, k, entry, data, hj, ho, hnames, hentry, hdirectory, hstored, hdata, hk, hinner.1,
      of_decide_eq_true hx ▸ hcontent,
      nested_same_as_copy ho hdirectory hstored hdata "copy.jar"⟩

end Jar
end JarReader

import JarReader.Jar.Content
import JarReader.Proofs.Metadata

namespace JarReader.Jar

open Zip

lemma exists_eq_ok_of_any {ε α : Type} {x : Except ε α} {p : α → Bool}
    (h : x.toOption.any p = true) : ∃ a, x = .ok a ∧ p a = true := by
  cases x with
  | error e => cases h
  | ok a => exact ⟨a, rfl, h⟩

lemma ofMetadata_eq_ok_iff {m : Metadata} {v : View} {root path : String} {kind : JarKind}
    {j : Jar} :
    ofMetadata m v root path kind = .ok j ↔
      ∃ archive, m.endRecord.archive v = .ok archive ∧
        j = ⟨root, path, kind, archive, m.endRecord, m.directory, .empty, 0⟩ := by
  simp only [ofMetadata, bind, Except.bind]
  cases m.endRecord.archive v with
  | error f => simp
  | ok archive => simp [pure, Except.pure, eq_comm]

lemma ofView_eq_ok_iff {d : Disk} {v : View} {root path : String} {kind : JarKind} {j : Jar} :
    ofView d v root path kind = .ok j ↔
      ∃ m archive, Metadata.read d v = .ok m ∧ m.endRecord.archive v = .ok archive ∧
        j = ⟨root, path, kind, archive, m.endRecord, m.directory, .empty, 0⟩ := by
  simp only [ofView, bind, Except.bind]
  cases Metadata.read d v with
  | error f => simp
  | ok m => simp [ofMetadata_eq_ok_iff]

section View

variable {d : Disk} {v : View} {root path : String} {kind : JarKind} {j : Jar}
  (h : ofView d v root path kind = .ok j)
include h

lemma start_ofView : j.start = .empty := by
  obtain ⟨_, _, _, _, rfl⟩ := ofView_eq_ok_iff.mp h
  rfl

lemma exists_parse_of_ofView :
    ∃ bytes declared, Directory.parse bytes declared = .ok j.directory := by
  obtain ⟨m, _, hm, _, rfl⟩ := ofView_eq_ok_iff.mp h
  obtain ⟨_, bytes, _, _, _, hparse⟩ := Metadata.read_eq_ok_iff.mp hm
  exact ⟨bytes, m.endRecord.entries, hparse⟩

end View

lemma entryData_eq_ok_iff {d : Disk} {j : Jar} {entry : Entry} {v : View} :
    j.entryData d entry = .ok v ↔
      ∃ bytes header, j.archive.readExact d entry.headerOffset LocalHeader.fixedSize = .ok bytes ∧
        LocalHeader.decode bytes entry.headerOffset = .ok header ∧
        j.archive.part (entry.headerOffset + header.size) entry.compressedSize = .ok v := by
  simp only [entryData, bind, Except.bind]
  cases j.archive.readExact d entry.headerOffset LocalHeader.fixedSize with
  | error f => simp
  | ok bytes =>
    cases hd : LocalHeader.decode bytes entry.headerOffset with
    | error f => simp [hd, throw, throwThe, MonadExceptOf.throw]
    | ok header => simp [hd]

lemma entryContent_stored {d : Disk} {j : Jar} {entry : Entry} (h : entry.method = .stored) :
    j.entryContent d entry = (j.entryData d entry).map (View.bytes d) := by
  simp only [entryContent, openEntry, bind, Except.bind, h]
  cases j.entryData d entry with
  | error f => rfl
  | ok v => rfl

section Root

variable {j : Jar} (h : j.start = .empty)
include h

lemma entries_of_start : j.entries = j.directory.records.map (Entry.ofRecord · .empty) := by
  have hs : j.directory.records.filter j.shows = j.directory.records :=
    List.filter_eq_self.mpr fun record _ => by simp [shows, h]
  rw [entries, records, hs, h]

lemma entry?_of_start (name : String) :
    j.entry? name = (j.directory.find [.empty, name.toUTF8]).map (Entry.ofRecord · .empty) := by
  simp [Jar.entry?, record?, h]

end Root

end JarReader.Jar

import JarReader.Proofs.Jar.Copy
import JarReader.Proofs.Text

namespace JarReader

open Zip Bytes

def Below (start name : ByteArray) : Prop :=
  ∃ rest : ByteArray, rest ≠ .empty ∧ name = start ++ rest

lemma size_ne_zero {b : ByteArray} (h : b ≠ .empty) : b.size ≠ 0 := by
  intro hs
  exact h (ByteArray.size_eq_zero_iff.mp hs)

lemma occursAt_zero_append (start rest : ByteArray) : occursAt start (start ++ rest) 0 = true := by
  rw [occursAt_iff, Nat.zero_add, ByteArray.extract_append_eq_left rfl]

lemma below_iff {start name : ByteArray} :
    Below start name ↔ occursAt start name 0 = true ∧ start.size < name.size := by
  constructor
  · rintro ⟨rest, hrest, rfl⟩
    refine ⟨occursAt_zero_append start rest, ?_⟩
    have := size_ne_zero hrest
    rw [ByteArray.size_append]
    omega
  · rintro ⟨hstart, hsize⟩
    rw [occursAt_iff, Nat.zero_add] at hstart
    refine ⟨name.extract start.size name.size, ?_, ?_⟩
    · rw [ne_eq, ByteArray.extract_eq_empty_iff]
      omega
    · have hname := ByteArray.extract_eq_extract_append_extract (a := name) (i := 0)
        (k := name.size) start.size (Nat.zero_le _) (Nat.le_of_lt hsize)
      rwa [hstart, ByteArray.extract_zero_size] at hname

instance (start name : ByteArray) : Decidable (Below start name) :=
  decidable_of_iff _ below_iff.symm

lemma Entry.stripBytes_append (start rest : ByteArray) :
    stripBytes start (start ++ rest) = rest := by
  rw [stripBytes, if_pos (occursAt_zero_append start rest),
    ByteArray.extract_append_eq_right rfl ByteArray.size_append]

lemma Entry.name_ne_empty {e : Entry} (h : e.isDirectory = true) : e.name ≠ "" := by
  intro he
  simp [isDirectory, he] at h

lemma Entry.isDirectory_iff {e : Entry} :
    e.isDirectory = true ↔ e.name.toList.getLast? = some '/' := by
  simp [isDirectory]

namespace Jar

variable {d : Disk} {j : Jar} {record : DirectoryRecord}

lemma start_openJar {s s' : System} {useCache : Bool} {path : String}
    (h : s.openJar useCache path = (.ok j, s')) : j.start = .empty := by
  obtain ⟨_, _, k, _, _, hk, rfl⟩ := exists_ofMetadata_of_openJar h
  obtain ⟨_, _, rfl⟩ := ofMetadata_eq_ok_iff.mp hk
  rfl

lemma start_nested {k : Jar} {entry : Entry} (hj : j.start.IsValidUTF8)
    (h : j.nested d entry = .ok k) : k.start.IsValidUTF8 := by
  obtain ⟨_, rfl⟩ | ⟨_, _, _, _, hk⟩ := nested_eq_ok_iff.mp h
  · exact hj.append entry.name.isValidUTF8
  · rw [start_ofView hk]
    exact ByteArray.isValidUTF8_empty

lemma Opened.start_isValidUTF8 (h : j.Opened d) : j.start.IsValidUTF8 := by
  induction h with
  | file _ hj =>
    rw [start_openJar hj]
    exact ByteArray.isValidUTF8_empty
  | data _ hj =>
    rw [start_ofView hj]
    exact ByteArray.isValidUTF8_empty
  | nested _ hk ih => exact start_nested ih hk
  | numbered _ _ ih => exact ih

lemma exists_rest_of_mem (h : record ∈ j.records) :
    record ∈ j.directory.records ∧ ∃ rest, record.name = j.start ++ rest := by
  obtain ⟨hmem, hshows⟩ := List.mem_filter.mp h
  refine ⟨hmem, ?_⟩
  simp only [shows, Bool.or_eq_true, Bool.and_eq_true, decide_eq_true_eq] at hshows
  rcases hshows with hempty | hbelow
  · rw [ByteArray.size_eq_zero_iff.mp hempty]
    exact ⟨record.name, ByteArray.empty_append.symm⟩
  · obtain ⟨rest, _, hrest⟩ := below_iff.mpr hbelow
    exact ⟨rest, hrest⟩

lemma records_eq_below (h : j.start ≠ .empty) :
    j.records = j.directory.records.filter fun r => Below j.start r.name := by
  apply List.filter_congr
  intro r _
  rw [Bool.eq_iff_iff]
  simp [shows, size_ne_zero h, below_iff]

structure ListsBelow (v : Jar) (name : ByteArray) : Prop where
  records : v.records = v.directory.records.filter fun r => Below name r.name
  entries : v.entries = v.records.map fun r =>
    { Entry.ofRecord r .empty with name := Text.ofBytes (r.name.extract name.size r.name.size) }
  size : v.size = v.records.length

lemma ofRecord_append {start rest : ByteArray} (h : record.name = start ++ rest) :
    Entry.ofRecord record start =
      { Entry.ofRecord record .empty with name := Text.ofBytes rest } := by
  simp only [Entry.ofRecord, h, Entry.stripBytes_append]

lemma listsBelow_start (h : j.start ≠ .empty) : j.ListsBelow j.start := by
  refine ⟨records_eq_below h, ?_, ?_⟩
  · apply List.map_congr_left
    intro r hmem
    obtain ⟨_, rest, hname⟩ := exists_rest_of_mem hmem
    rw [ofRecord_append hname, hname, ByteArray.extract_append_eq_right rfl ByteArray.size_append]
  · rw [Jar.size, if_neg (size_ne_zero h)]

lemma nested_of_isDirectory {entry : Entry} (h : entry.isDirectory = true) :
    j.nested d entry = .ok (j.nestedDirectory entry) := by
  rw [Jar.nested, if_pos h]

lemma start_nestedDirectory_ne_empty {entry : Entry} (h : entry.isDirectory = true) :
    (j.nestedDirectory entry).start ≠ .empty := by
  intro he
  have hs : (j.start ++ entry.name.toUTF8).size = 0 := congrArg ByteArray.size he
  rw [ByteArray.size_append] at hs
  have hn : entry.name.toUTF8 = .empty := ByteArray.size_eq_zero_iff.mp (by omega)
  exact Entry.name_ne_empty h (String.toByteArray_eq_empty_iff.mp hn)

lemma filter_below_eq_nil {name : ByteArray} {records : List DirectoryRecord}
    (h : ∀ r ∈ records, ¬ Below name r.name) :
    records.filter (fun r => Below name r.name) = [] := by
  rw [List.filter_eq_nil_iff]
  intro r hr
  simpa using h r hr

lemma ListsBelow.of_none {v : Jar} {start name : ByteArray} (h : v.ListsBelow start)
    (hnone : ∀ r ∈ v.directory.records, ¬ Below name r.name ∧ ¬ Below start r.name) :
    v.ListsBelow name := by
  have hrecords : v.records = [] := by
    rw [h.records]
    exact filter_below_eq_nil fun r hr => (hnone r hr).2
  refine ⟨?_, ?_, h.size⟩
  · rw [hrecords, filter_below_eq_nil fun r hr => (hnone r hr).1]
  · rw [h.entries, hrecords, List.map_nil, List.map_nil]

lemma ListsBelow.none_of_apart {v : Jar} {start name : ByteArray} (h : v.ListsBelow start)
    (h' : v.ListsBelow name) (hapart : ∀ x y : ByteArray, name ++ x ≠ start ++ y) :
    ∀ r ∈ v.directory.records, ¬ Below name r.name ∧ ¬ Below start r.name := by
  have hapart (r : DirectoryRecord) : ¬ (Below name r.name ∧ Below start r.name) := by
    rintro ⟨⟨x, _, hx⟩, y, _, hy⟩
    exact hapart x y (hx.symm.trans hy)
  have hsame := h.records.symm.trans h'.records
  intro r hr
  have hiff : Below start r.name ↔ Below name r.name := by
    have hm := congrArg (r ∈ ·) hsame
    simpa [hr] using hm
  have := hapart r
  tauto

/-- A directory opened as a jar lists what is below its name in the archive just if that name is in
UTF-8, or if there is nothing below it and nothing below what it is read as. -/
theorem nested_listsBelow_iff (hj : j.Opened d) (hr : record ∈ j.records)
    (hdirectory : (Entry.ofRecord record j.start).isDirectory = true) :
    (∃ v, j.nested d (.ofRecord record j.start) = .ok v ∧ v.directory = j.directory ∧
        v.ListsBelow record.name) ↔
      record.name.IsValidUTF8 ∨ ∀ r ∈ j.directory.records, ¬ Below record.name r.name ∧
        ¬ Below (j.start ++ (Entry.ofRecord record j.start).name.toUTF8) r.name := by
  obtain ⟨_, rest, hname⟩ := exists_rest_of_mem hr
  have hshown : (Entry.ofRecord record j.start).name = Text.ofBytes rest := by
    rw [ofRecord_append hname]
  have hlast := Entry.isDirectory_iff.mp hdirectory
  have hnested := nested_of_isDirectory (d := d) (j := j) hdirectory
  have hlists := listsBelow_start (start_nestedDirectory_ne_empty (j := j) hdirectory)
  have hstart : (j.nestedDirectory (.ofRecord record j.start)).start =
      j.start ++ (Text.ofBytes rest).toUTF8 := by
    rw [← hshown]
    rfl
  have hvalid : record.name.IsValidUTF8 ↔ rest.IsValidUTF8 := by
    obtain ⟨text, htext⟩ := Text.exists_toUTF8_eq hj.start_isValidUTF8
    rw [hname, ← htext, Text.isValidUTF8_append_iff]
  rw [hshown] at hlast ⊢
  rw [hstart] at hlists
  constructor
  · rintro ⟨v, hv, _, hbelow⟩
    rw [hnested] at hv
    cases hv
    by_cases hv : record.name.IsValidUTF8
    · exact .inl hv
    -- The view lists what is below the decoded name. No name is below that and the raw name at once,
    -- so the two lists are equal only if both are empty.
    · refine .inr (hlists.none_of_apart hbelow fun x y => ?_)
      rw [hvalid] at hv
      have hapart := Text.ofBytes_apart hv (by simp [hlast]) x y
      rwa [hname, ByteArray.append_assoc, ByteArray.append_assoc, ne_eq, ByteArray.append_right_inj]
  · intro h
    refine ⟨_, hnested, rfl, ?_⟩
    rcases h with hv | hnone
    · obtain ⟨text, rfl⟩ := Text.exists_toUTF8_eq (hvalid.mp hv)
      rwa [Text.ofBytes_toUTF8, ← hname] at hlists
    · exact hlists.of_none hnone

def accentedBytes : ByteArray :=
  (Archive.mk [⟨"é/".toUTF8, .empty, .empty, 0⟩, ⟨"é/a".toUTF8, .empty, .empty, 0⟩] .empty
    false).bytes

theorem nested_listsBelow_accentedBytes :
    ∃ (j : Jar) (record : DirectoryRecord), j.Opened (.empty []) ∧ record ∈ j.records ∧
      (Entry.ofRecord record j.start).isDirectory = true ∧
      ∃ v, j.nested (.empty []) (.ofRecord record j.start) = .ok v ∧ v.directory = j.directory ∧
        v.ListsBelow record.name := by
  have hs : (ofData (.empty []) (.ofBytes accentedBytes) "a.jar").toOption.any (fun j =>
      j.records.any fun record =>
        (Entry.ofRecord record j.start).isDirectory && record.name = "é/".toUTF8) = true := by
    decide +kernel
  obtain ⟨j, hj, hs⟩ := exists_eq_ok_of_any hs
  simp only [List.any_eq_true, Bool.and_eq_true, decide_eq_true_eq] at hs
  obtain ⟨record, hr, hdirectory, hname⟩ := hs
  have ho : j.Opened (.empty []) := .data (.memory accentedBytes) hj
  have hvalid : record.name.IsValidUTF8 := hname ▸ String.isValidUTF8 _
  exact ⟨j, record, ho, hr, hdirectory, (nested_listsBelow_iff ho hr hdirectory).mpr (.inl hvalid)⟩

def illFormedBytes : ByteArray :=
  (Archive.mk [⟨⟨#[0xFF, 0x2F]⟩, .empty, .empty, 0⟩,
    ⟨⟨#[0xFF, 0x2F, 0x61]⟩, "x".toUTF8, .empty, 0⟩] .empty false).bytes

theorem not_listsBelow_illFormedBytes :
    ∃ (j : Jar) (record : DirectoryRecord),
      ofData (.empty []) (.ofBytes illFormedBytes) "b.jar" = .ok j ∧ record ∈ j.records ∧
      (Entry.ofRecord record j.start).isDirectory = true ∧
      ¬ ∃ v, j.nested (.empty []) (.ofRecord record j.start) = .ok v ∧ v.directory = j.directory ∧
        v.ListsBelow record.name := by
  have hs : (ofData (.empty []) (.ofBytes illFormedBytes) "b.jar").toOption.any (fun j =>
      j.records.any fun record => (Entry.ofRecord record j.start).isDirectory &&
        (j.nestedDirectory (.ofRecord record j.start)).records.length ≠
          (j.directory.records.filter fun r => Below record.name r.name).length) = true := by
    decide +kernel
  obtain ⟨j, hj, hs⟩ := exists_eq_ok_of_any hs
  simp only [List.any_eq_true, Bool.and_eq_true, decide_eq_true_eq] at hs
  obtain ⟨record, hr, hdirectory, hlength⟩ := hs
  refine ⟨j, record, hj, hr, hdirectory, ?_⟩
  rintro ⟨v, hv, _, hbelow⟩
  rw [nested_of_isDirectory hdirectory] at hv
  cases hv
  exact hlength (congrArg List.length hbelow.records)

end Jar
end JarReader

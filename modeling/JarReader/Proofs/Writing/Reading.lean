import JarReader.Proofs.Directory.Lookup
import JarReader.Proofs.Jar.Opening
import JarReader.Proofs.Text
import JarReader.Proofs.Writing.Ending

namespace JarReader

namespace Zip

open Bytes View EndRecord

namespace Archive

lemma entryData_localPart {d : Disk} {j : Jar} {entry : Entry} {e : StoredEntry}
    {before rest : ByteArray} (hname : e.name.size ≤ 0xFFFF) (hextra : e.localExtra.size ≤ 0xFFFF)
    (hj : j.archive = .ofBytes (before ++ (e.localPart.toByteArray ++ rest)))
    (hoffset : entry.headerOffset = before.size) (hsize : entry.compressedSize = e.content.size) :
    (j.entryData d entry).map (View.bytes d) = .ok e.content := by
  obtain ⟨header, hheader, hlocal⟩ := e.localPart_eq
  have hl := e.length_localPart
  have hlength : LocalHeader.fixedSize ≤ e.localPart.length := by
    rw [hl, StoredEntry.headerLength]
    omega
  have hread : j.archive.readExact d entry.headerOffset LocalHeader.fixedSize =
      .ok ((e.localPart.toByteArray ++ rest).extract 0 LocalHeader.fixedSize) := by
    have hb := ByteArray.extract_append_size_add (a := before) (b := e.localPart.toByteArray ++ rest)
      (i := 0) (j := LocalHeader.fixedSize)
    rw [hj, hoffset, (whole_ofBytes d _).readExact_eq, bytes_ofBytes, ← hb, Nat.add_zero]
    simp only [length_ofBytes, ByteArray.size_append, List.size_toByteArray]
    omega
  have hdecode := LocalHeader.decode_extract (b := e.localPart.toByteArray ++ rest)
    (by rw [ByteArray.size_append, List.size_toByteArray]; omega) entry.headerOffset
  rw [e.decode_localPart] at hdecode
  have hs := e.size_localHeader hname hextra
  have hpart : ∃ v, j.archive.part (entry.headerOffset + LocalHeader.size
      ⟨.ofNat e.name.size, .ofNat e.localExtra.size⟩) entry.compressedSize = .ok v := by
    rw [hj, hoffset, hsize, hs]
    refine ⟨_, if_pos ?_⟩
    simp only [length_ofBytes, ByteArray.size_append, List.size_toByteArray]
    omega
  obtain ⟨v, hv⟩ := hpart
  rw [Jar.entryData_eq_ok_iff.mpr ⟨_, _, hread, hdecode, hv⟩, Except.map, bytes_part hv, hj, hoffset,
    hsize, hs, bytes_ofBytes, hlocal, ByteArray.append_assoc, ← ByteArray.append_assoc, ← hheader,
    ← ByteArray.size_append, extract_middle]

variable {a : Archive} (h : a.Writable)

lemma bytes_eq_local :
    ∃ rest : ByteArray, a.bytes = (localPart a.entries).toByteArray ++
      ((directory 0 a.entries).toByteArray ++ rest) := by
  refine ⟨a.wideEnd?.toByteArray ++ (a.fields.encode.toByteArray ++ a.comment), ?_⟩
  simp only [bytes_eq, beforeEnd, List.toByteArray_append, ByteArray.append_assoc]

lemma archive_endRecord (v : View) : a.endRecord.archive v = .ok v := by
  simp [EndRecord.archive, endRecord, part]

include h

lemma Writable.parse :
    ∃ directory, Directory.parse (Archive.directory 0 a.entries).toByteArray a.entries.length =
        .ok directory ∧ directory.records = (located 0 0 a.entries).map Located.record := by
  have hr := records_directory h.nameSizes .empty 0
  rw [ByteArray.empty_append, ByteArray.size_empty] at hr
  have hlen : ((located 0 0 a.entries).map Located.directoryOffset).length = a.entries.length := by
    rw [List.length_map, ← List.length_map Located.entry, map_entry_located]
  have hc : a.entries.length < endMark.toNat := h.counts.1
  refine ⟨_, Directory.parse_eq_ok_iff.mpr ⟨hc, _, hr, hlen, rfl⟩, ?_⟩
  rw [← hlen, Directory.records_eq (Directory.indexed_offsets _ (by omega)), List.map_map]
  exact List.map_congr_left fun x hx => recordAt_located h.nameSizes hx

lemma Writable.read {d : Disk} {v : View} (hv : v.Whole d) (hb : v.bytes d = a.bytes) :
    ∃ directory, Directory.parse (Archive.directory 0 a.entries).toByteArray a.entries.length =
        .ok directory ∧ directory.records = (located 0 0 a.entries).map Located.record ∧
      Metadata.read d v = .ok ⟨a.endRecord, directory⟩ := by
  obtain ⟨directory, hp, hr⟩ := h.parse
  obtain ⟨rest, hrest⟩ := bytes_eq_local (a := a)
  have hd : a.endRecord.readDirectory d (.ofBytes a.bytes) =
      .ok (Archive.directory 0 a.entries).toByteArray := by
    refine (readDirectory_eq_ok_iff (whole_ofBytes d _)).mpr ⟨?_, ?_⟩
    · rw [length_ofBytes, hrest]
      simp [ByteArray.size_append, endRecord]
    · rw [bytes_ofBytes, hrest, endRecord]
      simp only [← List.size_toByteArray]
      rw [extract_middle]
  refine ⟨directory, hp, hr, ?_⟩
  rw [Metadata.read_alike hv.alike_ofBytes, hb]
  exact Metadata.read_eq_ok_iff.mpr ⟨_, _, h.locate d, archive_endRecord _, hd, hp⟩

section Open

variable {d : Disk} {v : View} (hv : v.Whole d) (hb : v.bytes d = a.bytes) (root path : String)
  (kind : JarKind)
include hv hb

lemma Writable.open :
    ∃ directory, Directory.parse (Archive.directory 0 a.entries).toByteArray a.entries.length =
        .ok directory ∧ directory.records = (located 0 0 a.entries).map Located.record ∧
      Jar.ofView d v root path kind = .ok ⟨root, path, kind, v, a.endRecord, directory, .empty, 0⟩ := by
  obtain ⟨directory, hp, hr, hm⟩ := h.read hv hb
  exact ⟨directory, hp, hr, Jar.ofView_eq_ok_iff.mpr ⟨_, _, hm, archive_endRecord v, rfl⟩⟩

/-- What a written archive opens as can be told from its directory, without looking for it. -/
lemma Writable.exists_open {p : Jar → Bool}
    (hp : (Directory.parse (Archive.directory 0 a.entries).toByteArray a.entries.length).toOption.any
      (fun directory => p ⟨root, path, kind, v, a.endRecord, directory, .empty, 0⟩) = true) :
    ∃ j, Jar.ofView d v root path kind = .ok j ∧ p j = true := by
  obtain ⟨directory, hparse, _, hj⟩ := h.open hv hb root path kind
  rw [hparse] at hp
  exact ⟨_, hj, hp⟩

end Open

lemma Writable.exists_ofData {d : Disk} {root : String} {p : Jar → Bool}
    (hp : (Directory.parse (Archive.directory 0 a.entries).toByteArray a.entries.length).toOption.any
      (fun directory =>
        p ⟨root, "", .direct, .ofBytes a.bytes, a.endRecord, directory, .empty, 0⟩) = true) :
    ∃ j, Jar.ofData d (.ofBytes a.bytes) root = .ok j ∧ p j = true :=
  h.exists_open (whole_ofBytes d _) (bytes_ofBytes d _) root "" .direct hp

section Entries

variable {x : Located} (hx : x ∈ located 0 0 a.entries)
include hx

omit h in
lemma entry_mem : x.entry ∈ a.entries := by
  rw [← map_entry_located 0 0 a.entries]
  exact List.mem_map_of_mem hx

omit h in
lemma bytes_eq_at :
    ∃ before rest : ByteArray, before.size = x.headerOffset ∧
      a.bytes = before ++ (x.entry.localPart.toByteArray ++ rest) := by
  obtain ⟨rest, hr⟩ := bytes_eq_local (a := a)
  obtain ⟨before, after, hb, hh, _⟩ := mem_located hx
  refine ⟨(localPart before).toByteArray,
    (localPart after).toByteArray ++ ((directory 0 a.entries).toByteArray ++ rest), ?_, ?_⟩
  · rw [hh, Nat.zero_add, List.size_toByteArray]
  · rw [hr]
    nth_rewrite 1 [hb]
    simp only [localPart_append, localPart_cons, List.toByteArray_append, ByteArray.append_assoc]

lemma Writable.bounds : x.entry.content.size < 0xFFFFFFFF ∧ x.headerOffset < 0xFFFFFFFF := by
  have hl := h.localSize
  have he := x.entry.length_localPart
  obtain ⟨before, after, hb, hh, _⟩ := mem_located hx
  rw [hb, localPart_append, localPart_cons, List.length_append, List.length_append] at hl
  omega

lemma Writable.listed : Entry.ofRecord x.record .empty = x.listed :=
  ofRecord_record (h.nameSizes _ (entry_mem hx)) (h.bounds hx).1 (h.bounds hx).2

lemma Writable.name_record : x.record.name = x.entry.name :=
  Zip.name_record (h.nameSizes _ (entry_mem hx))

lemma Writable.entryData {d : Disk} {j : Jar} (hj : j.archive = .ofBytes a.bytes) :
    (j.entryData d x.listed).map (View.bytes d) = .ok x.entry.content := by
  obtain ⟨before, rest, hs, hb⟩ := bytes_eq_at hx
  rw [hb] at hj
  exact entryData_localPart (h.nameSizes _ (entry_mem hx)) (h.extraSizes _ (entry_mem hx)) hj
    hs.symm rfl

lemma Writable.toUTF8_name : x.listed.name.toUTF8 = x.entry.name := by
  obtain ⟨text, ht⟩ := h.names _ (entry_mem hx)
  rw [Located.listed, ht, Text.ofBytes_toUTF8]

end Entries

lemma Writable.lastNamed {directory : Directory}
    (hr : directory.records = (located 0 0 a.entries).map Located.record) (name : ByteArray) :
    directory.lastNamed name =
      ((located 0 0 a.entries).reverse.find? fun x => x.entry.name == name).map
        Located.record := by
  rw [Directory.lastNamed, hr, ← List.map_reverse, List.find?_map]
  refine congrArg _ (List.find?_congr fun x hx => ?_)
  rw [Function.comp_apply, h.name_record (List.mem_reverse.mp hx)]

end Archive

/-- The jar holds the archive as it was written: nothing precedes it, the end record is that of
`a`, and the entries are those of `a`, in order, with their contents. A name stands for the last
entry written under it. -/
structure Archive.ReadBack (d : Disk) (a : Archive) (j : Jar) : Prop where
  archiveStart : j.endRecord.archiveStart = 0
  zip64 : j.endRecord.zip64 = a.needsWide
  comment : j.endRecord.comment = a.comment
  entries : j.entries = (located 0 0 a.entries).map Located.listed
  names : j.entries.map (fun entry => entry.name.toUTF8) = a.entries.map StoredEntry.name
  entryData : j.entries.map (fun entry => (j.entryData d entry).map (View.bytes d)) =
    a.entries.map fun e => .ok e.content
  content? : ∀ name e,
    a.entries.reverse.find? (fun e => e.name == name.toUTF8) = some e →
      j.content? d name = .ok (some e.content)

theorem Archive.ofData_bytes {a : Archive} (h : a.Writable) (d : Disk) (root : String) :
    ∃ j, Jar.ofData d (.ofBytes a.bytes) root = .ok j ∧ a.ReadBack d j := by
  obtain ⟨directory, hp, hr, hj⟩ := h.open (whole_ofBytes d _) (bytes_ofBytes d _) root "" .direct
  have hmap : (located 0 0 a.entries).map Located.entry = a.entries := map_entry_located 0 0 _
  have hlisted : directory.records.map (Entry.ofRecord · .empty) =
      (located 0 0 a.entries).map Located.listed := by
    rw [hr, List.map_map]
    exact List.map_congr_left fun x hx => h.listed hx
  refine ⟨_, hj, rfl, rfl, rfl, ?_, ?_, ?_, fun name e he => ?_⟩
  · rw [Jar.entries_of_start rfl, hlisted]
  · rw [Jar.entries_of_start rfl, hlisted, ← hmap, List.map_map, List.map_map, hmap]
    exact List.map_congr_left fun x hx => h.toUTF8_name hx
  · rw [Jar.entries_of_start rfl, hlisted, ← hmap, List.map_map, List.map_map, hmap]
    exact List.map_congr_left fun x hx => h.entryData hx rfl
  · rw [← hmap, ← List.map_reverse, List.find?_map, Option.map_eq_some_iff] at he
    obtain ⟨x, hx, rfl⟩ := he
    have hmem := List.mem_reverse.mp (List.mem_of_find?_eq_some hx)
    have hfind : directory.find [.empty, name.toUTF8] = some x.record := by
      have hj : Directory.joined [.empty, name.toUTF8] = name.toUTF8 := by
        simp [Directory.joined]
      rw [Directory.find, Directory.findExact_eq hp, hj, h.lastNamed hr]
      simp only [Function.comp_def] at hx
      rw [hx]
      rfl
    rw [Jar.content?, Jar.entry?_of_start rfl]
    simp only [hfind, Option.map_some, h.listed hmem]
    rw [Jar.entryContent_stored rfl, h.entryData hmem rfl]
    rfl

def Archive.sample : Archive where
  entries := [
    ⟨"é".toUTF8, ⟨#[0x50, 0x4B, 0x05, 0x06]⟩, ⟨#[1, 2, 3]⟩, 0⟩,
    ⟨"b/".toUTF8, .empty, .empty, 0⟩,
    ⟨"é".toUTF8, "x".toUTF8, .empty, 0⟩]
  comment := ⟨#[0x50, 0x4B, 0x05, 0x06]⟩
  wide := true

lemma Archive.writable_sample : sample.Writable where
  names := by simp [sample]
  nameSizes := by decide +kernel
  extraSizes := by decide +kernel
  commentSize := by decide +kernel
  localSize := by decide +kernel
  directorySize := by decide +kernel
  last := by
    have hs : search sample.bytes = some sample.beforeEnd.size := by decide +kernel
    exact (search_eq_some_iff.mp hs).2

theorem Archive.ofData_bytes_sample :
    sample.Writable ∧ ∃ j, Jar.ofData (.empty []) (.ofBytes sample.bytes) "s.jar" = .ok j ∧
      sample.ReadBack (.empty []) j :=
  ⟨writable_sample, ofData_bytes writable_sample _ _⟩

end Zip
end JarReader

import JarReader.Proofs.Jar.Below
import JarReader.Proofs.Writing.Reading

/-! Going down through directories leads to the entries that the archive itself has below the names
on the way. A directory that is found by its name is also listed, so the chains of listed
directories include those of found ones. -/

namespace JarReader

open Zip Bytes

def Entry.under (start : String) (e : Entry) : Entry := { e with name := start ++ e.name }

def Failure.under (start : String) : Failure → Failure
  | .unsupportedMethod name method => .unsupportedMethod (start ++ name) method
  | failure => failure

namespace Jar

/-- The jars that are reached from `j` by opening one directory after the other, each listed by the
jar before, and these directories. -/
inductive Descends (d : Disk) (j : Jar) : List Entry → Jar → Prop
  | here : Descends d j [] j
  | into {es : List Entry} {v w : Jar} {record : DirectoryRecord} : Descends d j es v →
      record ∈ v.records → record.name.IsValidUTF8 →
      (Entry.ofRecord record v.start).isDirectory = true →
      v.nested d (.ofRecord record v.start) = .ok w →
      Descends d j (es ++ [.ofRecord record v.start]) w

def path (es : List Entry) : String := String.join (es.map Entry.name)

lemma path_append (es : List Entry) (e : Entry) : path (es ++ [e]) = path es ++ e.name := by
  simp [path, String.join]

structure Agrees (d : Disk) (j v : Jar) (es : List Entry) : Prop where
  entry? : ∀ name ≠ "", j.entry? (path es ++ name) = (v.entry? name).map (Entry.under (path es))
  content? : ∀ name ≠ "", j.content? d (path es ++ name) =
    (v.content? d name).mapError (Failure.under (path es))
  listed : ∀ name e, v.entry? name = some e → e ∈ v.entries
  below : ∀ name e, v.entry? name = some e → ∃ record ∈ j.directory.records,
    e = .ofRecord record (path es).toUTF8 ∧ Below (path es).toUTF8 record.name
  other : ∀ name e, v.entry? name = some e → ∀ last, es.getLast? = some last →
    e.directoryOffset ≠ last.directoryOffset
  atOnce : ∃ w, j.nested? d (path es) = .ok (some w) ∧ w.entries = v.entries

structure Within (j v : Jar) (start : String) : Prop where
  archive : v.archive = j.archive
  directory : v.directory = j.directory
  start : v.start = start.toUTF8

variable {d : Disk} {j v : Jar} {es : List Entry}

lemma Descends.within (hj : j.start = .empty) (h : Descends d j es v) : Within j v (path es) := by
  -- Each step keeps the archive and the directory and puts one more name on the way.
  induction h with
  | here => exact ⟨rfl, rfl, hj⟩
  | into _ _ _ hdirectory hnested ih =>
    rw [nested_of_isDirectory hdirectory] at hnested
    cases hnested
    refine ⟨ih.archive, ih.directory, ?_⟩
    rw [path_append, Text.toUTF8_append, ← ih.start]
    rfl

lemma Descends.last (hj : j.start = .empty) (h : Descends d j es v) (hes : es ≠ []) :
    ∃ e, ∃ record ∈ j.directory.records, es.getLast? = some e ∧ e.directoryOffset = record.offset ∧
      record.name = (path es).toUTF8 ∧ (path es).toList.getLast? = some '/' := by
  cases h with
  | here => contradiction
  | @into es v _ record hv hr hvalid hdirectory _ =>
    have hw := hv.within hj
    obtain ⟨hmem, rest, hname⟩ := exists_rest_of_mem hr
    rw [hw.start] at hname
    obtain ⟨text, rfl⟩ : ∃ text : String, text.toUTF8 = rest :=
      Text.exists_toUTF8_eq (by rwa [hname, Text.isValidUTF8_append_iff] at hvalid)
    have htext : (Entry.ofRecord record v.start).name = text := by
      rw [hw.start, ofRecord_append hname, Text.ofBytes_toUTF8]
    rw [Entry.isDirectory_iff, htext] at hdirectory
    refine ⟨_, record, hw.directory ▸ hmem, List.getLast?_concat, rfl, ?_, ?_⟩
    · rw [path_append, htext, Text.toUTF8_append, hname]
    · rw [path_append, htext, String.toList_append]
      simp [hdirectory]

lemma joined_pair (start name : String) :
    Directory.joined [start.toUTF8, name.toUTF8] = (start ++ name).toUTF8 := by
  simp [Directory.joined]

lemma ofRecord_under {record : DirectoryRecord} {start rest : String}
    (h : record.name = (start ++ rest).toUTF8) :
    Entry.ofRecord record .empty = (Entry.ofRecord record start.toUTF8).under start := by
  have hrest : record.name = start.toUTF8 ++ rest.toUTF8 := by rw [h, Text.toUTF8_append]
  have hempty : record.name = .empty ++ record.name := ByteArray.empty_append.symm
  have hall : (Entry.ofRecord record .empty).name = start ++ rest := by
    rw [ofRecord_append hempty, h, Text.ofBytes_toUTF8]
  rw [ofRecord_append hrest, Entry.under, Text.ofBytes_toUTF8, ← hall]

section Within

variable {b : ByteArray} {declared : Nat} (hparse : Directory.parse b declared = .ok j.directory)
  {start : String} (hw : Within j v start)
include hparse hw

lemma Within.of_record? {name : String} {record : DirectoryRecord}
    (h : v.record? name = some record) :
    record ∈ j.directory.records ∧ ∃ rest : String, record.name = (start ++ rest).toUTF8 ∧
      (start ≠ "" → rest ≠ "") := by
  simp only [Jar.record?] at h
  split at h
  · cases h
  · rename_i hname
    rw [hw.start, hw.directory] at h
    obtain ⟨hmem, hfound⟩ := Directory.mem_of_find_eq_some hparse h
    rw [joined_pair] at hfound
    refine ⟨hmem, ?_⟩
    rcases hfound with hfound | hfound
    · refine ⟨name, hfound, fun hs hn => hname ?_⟩
      simp [hn, hw.start, hs]
    · have hslash : Directory.slash = "/".toUTF8 := rfl
      refine ⟨name ++ "/", ?_, by simp⟩
      rw [hfound, hslash, ← Text.toUTF8_append, String.append_assoc]

lemma Within.record? {name : String} (hj : j.start = .empty) (hname : name ≠ "") :
    j.record? (start ++ name) = v.record? name := by
  have hjoined : Directory.joined [.empty, (start ++ name).toUTF8] =
      Directory.joined [start.toUTF8, name.toUTF8] := by
    simp [Directory.joined]
  have hfind := Directory.find_congr hparse hjoined
  simpa [Jar.record?, hj, hw.start, hw.directory, hname] using hfind

lemma Within.entry? {name : String} (hj : j.start = .empty) (hname : name ≠ "") :
    j.entry? (start ++ name) = (v.entry? name).map (Entry.under start) := by
  simp only [Jar.entry?, hw.record? hparse hj hname, hj, hw.start, Option.map_map]
  cases hr : v.record? name with
  | none => rw [Option.map_none, Option.map_none]
  | some record =>
    obtain ⟨_, rest, hrest, _⟩ := hw.of_record? hparse hr
    rw [Option.map_some, Option.map_some, Function.comp_apply, ofRecord_under hrest]

lemma Within.below {name : String} {record : DirectoryRecord} (hs : start ≠ "")
    (h : v.record? name = some record) : Below start.toUTF8 record.name := by
  obtain ⟨_, rest, hrest, hne⟩ := hw.of_record? hparse h
  refine ⟨rest.toUTF8, ?_, by rw [hrest, Text.toUTF8_append]⟩
  simpa using hne hs

lemma Within.mem_records {name : String} {record : DirectoryRecord}
    (h : v.record? name = some record) : record ∈ v.records := by
  obtain ⟨hmem, _⟩ := hw.of_record? hparse h
  refine List.mem_filter.mpr ⟨hw.directory ▸ hmem, ?_⟩
  by_cases hs : start = ""
  · simp [shows, hw.start, hs]
  · have hbelow := below_iff.mp (hw.below hparse hs h)
    simp only [shows, hw.start, hbelow, decide_true, Bool.and_self, Bool.or_true]

end Within

lemma Descends.into_found {b : ByteArray} {declared : Nat}
    (hparse : Directory.parse b declared = .ok j.directory) (hj : j.start = .empty)
    (h : Descends d j es v) {name : String} {e : Entry} (he : v.entry? name = some e)
    (hdirectory : e.isDirectory = true) : Descends d j (es ++ [e]) (v.nestedDirectory e) := by
  have hw := h.within hj
  obtain ⟨record, hr, rfl⟩ := Option.map_eq_some_iff.mp he
  obtain ⟨_, rest, hrest, _⟩ := hw.of_record? hparse hr
  have hvalid : record.name.IsValidUTF8 := hrest ▸ String.isValidUTF8 _
  exact h.into (hw.mem_records hparse hr) hvalid hdirectory (nested_of_isDirectory hdirectory)

section Content

variable (start : String)

lemma entryData_under (h : v.archive = j.archive) (e : Entry) :
    j.entryData d (e.under start) = v.entryData d e := by
  simp only [Jar.entryData, h, Entry.under]

lemma readExact_under (w : View) (i n : Nat) :
    (w.readExact d i n).mapError (Failure.under start) = w.readExact d i n := by
  simp only [View.readExact]
  split <;> rfl

lemma part_under (w : View) (offset length : Nat) :
    (w.part offset length).mapError (Failure.under start) = w.part offset length := by
  rw [View.part]
  split <;> rfl

lemma entryData_mapError (e : Entry) :
    (v.entryData d e).mapError (Failure.under start) = v.entryData d e := by
  have hread := readExact_under (d := d) start v.archive e.headerOffset LocalHeader.fixedSize
  simp only [Jar.entryData, bind, Except.bind]
  cases hb : v.archive.readExact d e.headerOffset LocalHeader.fixedSize with
  | error f =>
    rw [hb] at hread
    exact congrArg Except.error (Except.error.inj hread)
  | ok bytes =>
    cases hd : LocalHeader.decode bytes e.headerOffset with
    | error f => simp [hd, Except.mapError, throw, throwThe, MonadExceptOf.throw, Failure.under]
    | ok header => simp only [hd, part_under]

lemma entryContent_under (h : v.archive = j.archive) (e : Entry) :
    j.entryContent d (e.under start) = (v.entryContent d e).mapError (Failure.under start) := by
  have hdata := entryData_mapError (d := d) (v := v) start e
  simp only [Jar.entryContent, Jar.openEntry, entryData_under start h]
  cases hv : v.entryData d e with
  | error f =>
    rw [hv] at hdata
    simpa [bind, Except.bind, Except.mapError] using hdata.symm
  | ok data =>
    have hread (r : ContentReader) :
        ((r.readToEnd d).1.mapError .io).mapError (Failure.under start) =
          (r.readToEnd d).1.mapError Failure.io := by
      cases (r.readToEnd d).1 <;> rfl
    have hm : (e.under start).method = e.method := rfl
    rw [hm]
    cases e.method with
    | stored => simp only [bind, Except.bind, pure, Except.pure, hread]
    | deflated => simp only [bind, Except.bind, pure, Except.pure, hread]
    | unknown code => rfl

end Content

lemma content?_under {start name : String} (h : v.archive = j.archive)
    (he : j.entry? (start ++ name) = (v.entry? name).map (Entry.under start)) :
    j.content? d (start ++ name) = (v.content? d name).mapError (Failure.under start) := by
  simp only [Jar.content?, he]
  cases v.entry? name with
  | none => rfl
  | some e =>
    simp only [Option.map_some, entryContent_under start h]
    cases v.entryContent d e <;> rfl

lemma nested?_path {b : ByteArray} {declared : Nat}
    (hparse : Directory.parse b declared = .ok j.directory) (hj : j.start = .empty) {name : String}
    {record : DirectoryRecord} (hr : record ∈ j.directory.records)
    (hname : record.name = name.toUTF8) (hslash : name.toList.getLast? = some '/') :
    ∃ w, j.nested? d name = .ok (some w) ∧ w.directory = j.directory ∧ w.start = name.toUTF8 := by
  have hjoined : record.name = Directory.joined [.empty, name.toUTF8] := by
    simp [hname, Directory.joined]
  obtain ⟨found, hfind, hfound⟩ := Directory.exists_find_of_mem hparse hr hjoined
  rw [← hjoined, hname, ← ByteArray.empty_append (b := name.toUTF8)] at hfound
  have he : j.entry? name = some (.ofRecord found .empty) := by
    rw [Jar.entry?_of_start hj, hfind, Option.map_some]
  have hshown : (Entry.ofRecord found .empty).name = name := by
    rw [ofRecord_append hfound, Text.ofBytes_toUTF8]
  have hdirectory : (Entry.ofRecord found .empty).isDirectory = true := by
    rw [Entry.isDirectory_iff, hshown]
    exact hslash
  refine ⟨j.nestedDirectory (.ofRecord found .empty), ?_, rfl, ?_⟩
  · simp only [Jar.nested?, he, nested_of_isDirectory hdirectory]
    rfl
  · rw [nestedDirectory, hj, hshown, ByteArray.empty_append]

theorem descends_agrees {view : View} {root pathFromRoot : String} {kind : JarKind}
    (hj : ofView d view root pathFromRoot kind = .ok j) (h : Descends d j es v) (hes : es ≠ []) :
    Agrees d j v es := by
  obtain ⟨_, _, hparse⟩ := exists_parse_of_ofView hj
  have hstart := start_ofView hj
  have hw := h.within hstart
  obtain ⟨last, record, hr, hlast, hoffset, hname, hslash⟩ := h.last hstart hes
  have hpath : path es ≠ "" := by
    intro he
    simp [he] at hslash
  have hfound {name : String} {e : Entry} (he : v.entry? name = some e) :
      ∃ found, v.record? name = some found ∧ e = .ofRecord found (path es).toUTF8 := by
    obtain ⟨found, hf, rfl⟩ := Option.map_eq_some_iff.mp he
    exact ⟨found, hf, by rw [hw.start]⟩
  constructor
  case entry? =>
    intro name hne
    exact hw.entry? hparse hstart hne
  case content? =>
    intro name hne
    exact content?_under hw.archive (hw.entry? hparse hstart hne)
  case listed =>
    intro name e he
    obtain ⟨found, hf, rfl⟩ := hfound he
    rw [← hw.start]
    exact List.mem_map_of_mem (hw.mem_records hparse hf)
  case below =>
    intro name e he
    obtain ⟨found, hf, rfl⟩ := hfound he
    exact ⟨found, (hw.of_record? hparse hf).1, rfl, hw.below hparse hpath hf⟩
  case other =>
    intro name e he last' hlast'
    obtain ⟨found, hf, rfl⟩ := hfound he
    obtain rfl : last = last' := Option.some.inj (hlast.symm.trans hlast')
    rw [hoffset]
    intro ho
    -- At the position of the last directory there is its own record, which is not below its name.
    have hsame : found = record := Directory.eq_of_offset_eq (hw.of_record? hparse hf).1 hr ho
    have hbelow := (below_iff.mp (hw.below hparse hpath hf)).2
    rw [hsame, hname] at hbelow
    exact Nat.lt_irrefl _ hbelow
  case atOnce =>
    obtain ⟨w, hnested, hdirectory, hwstart⟩ :=
      nested?_path (d := d) hparse hstart hr hname hslash
    refine ⟨w, hnested, entries_congr ?_ ?_⟩
    · rw [hdirectory, hw.directory]
    · rw [hwstart, hw.start]

def directoriesArchive : Archive :=
  ⟨["a/", "a/b/", "a/b/c"].map fun name => ⟨name.toUTF8, .empty, .empty, 0⟩, .empty, false⟩

lemma writable_directoriesArchive : directoriesArchive.Writable :=
  Archive.writable_of_comment_empty rfl (by simp [directoriesArchive]) (by decide +kernel)

def directoriesBytes : ByteArray := directoriesArchive.bytes

theorem descends_agrees_directoriesBytes :
    ∃ (j : Jar) (es : List Entry) (v : Jar),
      ofData (.empty []) (.ofBytes directoriesBytes) "a.jar" = .ok j ∧
      es.map Entry.name = ["a/", "b/"] ∧ Descends (.empty []) j es v ∧
      Agrees (.empty []) j v es := by
  obtain ⟨j, hj, hs⟩ : ∃ j, ofData (.empty []) (.ofBytes directoriesBytes) "a.jar" = .ok j ∧
      ((j.entry? "a").any fun a => a.isDirectory && a.name = "a/" &&
        (Jar.entry? (j.nestedDirectory a) "b/").any fun b =>
          b.isDirectory && b.name = "b/") = true := by
    apply writable_directoriesArchive.exists_ofData
    decide +kernel
  simp only [Option.any_eq_true, Bool.and_eq_true, decide_eq_true_eq] at hs
  obtain ⟨a, ha, ⟨hda, hna⟩, b, hb, hdb, hnb⟩ := hs
  obtain ⟨_, _, hparse⟩ := exists_parse_of_ofView hj
  have hstart := start_ofView hj
  have hchain := (Descends.here.into_found (d := .empty []) hparse hstart ha hda).into_found
    hparse hstart hb hdb
  exact ⟨j, _, _, hj, by simp [hna, hnb], hchain, descends_agrees hj hchain (by simp)⟩

end Jar
end JarReader

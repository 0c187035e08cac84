import JarReader.Proofs.Jar.Descent
import JarReader.Proofs.Text.Segment
import JarReader.Url.Basic
import Mathlib.Data.List.Infix
import Mathlib.Data.List.Nodup

/-! Directories whose names URLs can tell apart. Each entry that a jar lists is the one found by its name,
and a directory is also found without the slash behind its name. -/

namespace JarReader

open Zip

namespace Url

structure Nameable (name : String) : Prop where
  nonempty : name ≠ ""
  noSeparator : ¬ separator.toList <:+: name.toList
  notSlash : name ≠ "/"
  noDoubleSlash : ¬ "//".toList <:+ name.toList

instance (name : String) : Decidable (Nameable name) :=
  decidable_of_iff (name ≠ "" ∧ ¬ separator.toList <:+: name.toList ∧ name ≠ "/" ∧
      ¬ "//".toList <:+ name.toList)
    ⟨fun ⟨h, hs, hn, hd⟩ => ⟨h, hs, hn, hd⟩, fun h =>
      ⟨h.nonempty, h.noSeparator, h.notSlash, h.noDoubleSlash⟩⟩

def bare (name : String) : String :=
  if name.toList.getLast? = some '/' then .ofList name.toList.dropLast else name

/-- The names are in UTF-8, and they differ in more than a slash at the end. -/
def WellNamed (directory : Directory) : Prop :=
  ∃ names : List String, directory.records.map DirectoryRecord.name = names.map String.toUTF8 ∧
    (∀ name ∈ names, Nameable name) ∧ (names.map bare).Nodup

lemma toUTF8_injective : Function.Injective String.toUTF8 := fun _ _ h => String.toByteArray_inj.mp h

lemma WellNamed.exists_name {directory : Directory} (h : WellNamed directory)
    {record : DirectoryRecord} (hr : record ∈ directory.records) :
    ∃ name : String, record.name = name.toUTF8 ∧ Nameable name := by
  obtain ⟨names, hnames, hnameable, _⟩ := h
  have hmem : record.name ∈ names.map String.toUTF8 := hnames ▸ List.mem_map_of_mem hr
  obtain ⟨name, hname, he⟩ := List.mem_map.mp hmem
  exact ⟨name, he.symm, hnameable name hname⟩

lemma WellNamed.eq_of_bare {directory : Directory} (h : WellNamed directory)
    {r s : DirectoryRecord} (hr : r ∈ directory.records) (hs : s ∈ directory.records) {x y : String}
    (hx : r.name = x.toUTF8) (hy : s.name = y.toUTF8) (he : bare x = bare y) : r = s := by
  obtain ⟨names, hnames, _, hdistinct⟩ := h
  have hmem {r : DirectoryRecord} (hr : r ∈ directory.records) {x : String}
      (hx : r.name = x.toUTF8) : x ∈ names := by
    have hmap : r.name ∈ names.map String.toUTF8 := hnames ▸ List.mem_map_of_mem hr
    rwa [hx, List.mem_map_of_injective toUTF8_injective] at hmap
  have hxy : x = y := List.inj_on_of_nodup_map hdistinct (hmem hr hx) (hmem hs hy) he
  have hrecords : (directory.records.map DirectoryRecord.name).Nodup := by
    rw [hnames]
    exact hdistinct.of_map.map toUTF8_injective
  exact List.inj_on_of_nodup_map hrecords hr hs (by rw [hx, hy, hxy])

lemma bare_of_slash {name front : String} (h : name = front ++ "/") : bare name = front := by
  have hlist : name.toList = front.toList ++ ['/'] := by simp [h]
  rw [bare, hlist, if_pos List.getLast?_concat, List.dropLast_concat, String.ofList_toList]

lemma bare_of_ne {name : String} (h : name.toList.getLast? ≠ some '/') : bare name = name := if_neg h

end Url

lemma Zip.Directory.hasSlash_toUTF8 {name : String} (h : name.toList.getLast? ≠ some '/') :
    Directory.hasSlash name.toUTF8 = false := by
  rw [Directory.hasSlash, decide_eq_false_iff_not, ← Array.getLast?_toList, Text.bytes_toUTF8]
  rcases List.eq_nil_or_concat' name.toList with hnil | ⟨front, c, hfront⟩
  · simp [hnil]
  · rw [hfront, List.flatMap_append, List.flatMap_singleton,
      List.getLast?_append_of_ne_nil _ String.utf8EncodeChar_ne_nil]
    intro hlast
    obtain ⟨hc, _⟩ := Text.utf8EncodeChar_of_mem (List.mem_of_getLast? hlast) (by decide)
    rw [hfront, List.getLast?_concat] at h
    exact h (congrArg some (Char.toNat_inj.mp hc))

def Entry.segment (e : Entry) : String :=
  if e.isDirectory then Text.trimEnd (· = '/') e.name else e.name

lemma trimEnd_slash {name : String} {front : List Char} (h : name.toList = front ++ ['/'])
    (hne : front.getLast? ≠ some '/') : Text.trimEnd (· = '/') name = .ofList front := by
  rw [Text.trimEnd, Text.dropEnd, h, List.reverse_append, List.reverse_singleton,
    List.singleton_append, List.dropWhile_cons_of_pos (by decide)]
  cases hfront : front.reverse with
  | nil => simpa using hfront
  | cons c rest =>
    have hc : c ≠ '/' := by
      rintro rfl
      rw [List.getLast?_eq_head?_reverse, hfront] at hne
      exact hne rfl
    rw [List.dropWhile_cons_of_neg (by simpa using hc), ← hfront, List.reverse_reverse]

namespace Jar

def Has (v : Jar) (e : Entry) : Prop := e ∈ v.entries ∨ ∃ name, v.entry? name = some e

lemma path_of_nested {d : Disk} {v w : Jar} {e : Entry} (h : v.nested d e = .ok w) :
    w.root = v.root ∧ w.pathFromRoot = v.pathFromRoot ++ Url.separator ++ e.segment := by
  obtain ⟨hdirectory, rfl⟩ | ⟨hdirectory, _, _, _, hw⟩ := nested_eq_ok_iff.mp h
  · rw [Entry.segment, if_pos hdirectory]
    exact ⟨rfl, rfl⟩
  · obtain ⟨_, _, _, _, rfl⟩ := ofView_eq_ok_iff.mp hw
    rw [Entry.segment, hdirectory, if_neg Bool.false_ne_true]
    exact ⟨rfl, rfl⟩

structure Addressable (v : Jar) (start : String) : Prop where
  begins : v.start = start.toUTF8
  slash : start = "" ∨ start.toList.getLast? = some '/'
  parsed : ∃ bytes declared, Directory.parse bytes declared = .ok v.directory
  named : Url.WellNamed v.directory

section Addressable

variable {v : Jar} {start : String} (h : v.Addressable start) {e : Entry}
include h

lemma Addressable.within : Within v v start := ⟨rfl, rfl, h.begins⟩

lemma Addressable.listed (he : e ∈ v.entries) :
    ∃ record ∈ v.directory.records, e = .ofRecord record v.start ∧
      record.name = (start ++ e.name).toUTF8 ∧ Url.Nameable (start ++ e.name) ∧ e.name ≠ "" := by
  obtain ⟨record, hr, rfl⟩ := List.mem_map.mp he
  obtain ⟨hmem, rest, hrest⟩ := exists_rest_of_mem hr
  obtain ⟨name, hname, hnameable⟩ := h.named.exists_name hmem
  have hvalid : rest.IsValidUTF8 := by
    rw [← Text.isValidUTF8_append_iff start, ← h.begins, ← hrest, hname]
    exact name.isValidUTF8
  obtain ⟨text, rfl⟩ := Text.exists_toUTF8_eq hvalid
  have htext : (Entry.ofRecord record v.start).name = text := by
    rw [ofRecord_append hrest, Text.ofBytes_toUTF8]
  have hfull : name = start ++ text := by
    apply Url.toUTF8_injective
    rw [← hname, hrest, h.begins, Text.toUTF8_append]
  subst hfull
  refine ⟨record, hmem, rfl, ?_, ?_, ?_⟩
  · rw [htext, hname]
  · rwa [htext]
  · rw [htext]
    rintro rfl
    have hshows : v.shows record = true := (List.mem_filter.mp hr).2
    have hsame : record.name = v.start := by simpa using hrest
    have hstart : start ≠ "" := by simpa using hnameable.nonempty
    simp [shows, hsame, h.begins, hstart] at hshows

lemma Addressable.entry?_name (he : e ∈ v.entries) : v.entry? e.name = some e := by
  obtain ⟨record, hr, hrecord, hname, _, hne⟩ := h.listed he
  obtain ⟨bytes, declared, hparse⟩ := h.parsed
  have hjoined := joined_pair start e.name
  obtain ⟨found, hfind, hfound⟩ := Directory.exists_find_of_mem hparse hr (hname.trans hjoined.symm)
  have hmem := (Directory.mem_of_find_eq_some hparse hfind).1
  have hsame : found = record := h.named.eq_of_bare hmem hr (hfound.trans hjoined) hname rfl
  rw [Jar.entry?, Jar.record?, h.begins, if_neg (by simp [hne]), hfind, hsame, Option.map_some,
    ← h.begins, ← hrecord]

lemma Addressable.name_of_isDirectory (he : e ∈ v.entries) (hdirectory : e.isDirectory = true) :
    e.name = e.segment ++ "/" ∧ e.segment ≠ "" ∧ e.segment.toList.getLast? ≠ some '/' := by
  obtain ⟨record, _, _, _, hnameable, hne⟩ := h.listed he
  have hlast := Entry.isDirectory_iff.mp hdirectory
  obtain ⟨front, hfront⟩ : ∃ front, e.name.toList = front ++ ['/'] :=
    List.getLast?_eq_some_iff.mp hlast
  have hslash : front.getLast? ≠ some '/' := by
    intro hs
    obtain ⟨before, hbefore⟩ := List.getLast?_eq_some_iff.mp hs
    apply hnameable.noDoubleSlash
    rw [String.toList_append, hfront, hbefore]
    exact ⟨start.toList ++ before, by simp⟩
  have hnil : front ≠ [] := by
    rintro rfl
    have hname : e.name = "/" := String.toList_inj.mp hfront
    rcases h.slash with hs | hs
    · exact hnameable.notSlash (by rw [hs, hname, String.empty_append])
    · obtain ⟨before, hbefore⟩ := List.getLast?_eq_some_iff.mp hs
      apply hnameable.noDoubleSlash
      rw [String.toList_append, hbefore, hname]
      exact ⟨before, by simp⟩
  rw [Entry.segment, if_pos hdirectory, trimEnd_slash hfront hslash]
  refine ⟨?_, by simpa using hnil, by simpa using hslash⟩
  rw [← String.toList_inj, hfront]
  simp

lemma Addressable.entry?_segment (he : e ∈ v.entries) : v.entry? e.segment = some e := by
  by_cases hdirectory : e.isDirectory = true
  · obtain ⟨hname, hne, hlast⟩ := h.name_of_isDirectory he hdirectory
    obtain ⟨record, hr, hrecord, hfull, _, _⟩ := h.listed he
    obtain ⟨bytes, declared, hparse⟩ := h.parsed
    have hjoined := joined_pair start e.segment
    have hend : (start ++ e.segment).toList.getLast? ≠ some '/' := by
      rw [String.toList_append, List.getLast?_append_of_ne_nil _ (by simpa using hne)]
      exact hlast
    have hslash : Directory.slash = "/".toUTF8 := rfl
    have hfull' : record.name = (start ++ e.segment).toUTF8 ++ Directory.slash := by
      rw [hfull, hslash, ← Text.toUTF8_append, String.append_assoc, ← hname]
    have hbare : Url.bare (start ++ e.segment) = Url.bare (start ++ e.name) := by
      rw [Url.bare_of_ne hend, Url.bare_of_slash (by rw [String.append_assoc, ← hname])]
    have hnone : ∀ r ∈ v.directory.records, r.name ≠ Directory.joined [start.toUTF8, e.segment.toUTF8] := by
      intro r hmem hsame
      rw [hjoined] at hsame
      obtain rfl := h.named.eq_of_bare hmem hr hsame hfull hbare
      have hboth : start ++ e.segment = start ++ e.name :=
        Url.toUTF8_injective (hsame.symm.trans hfull)
      rw [hboth, hname] at hend
      simp at hend
    have hmiss : Directory.hasSlash (Directory.joined [start.toUTF8, e.segment.toUTF8]) = false := by
      rw [hjoined]
      exact Directory.hasSlash_toUTF8 hend
    rw [← hjoined] at hfull'
    obtain ⟨found, hfind, hfound⟩ :=
      Directory.exists_find_of_slash hparse hr hfull' hnone hmiss
    have hmem := (Directory.mem_of_find_eq_some hparse hfind).1
    have hsame : found = record :=
      h.named.eq_of_bare hmem hr (hfound.trans (hfull'.symm.trans hfull)) hfull rfl
    rw [Jar.entry?, Jar.record?, h.begins, if_neg (by simp [hne]), hfind, hsame, Option.map_some,
      ← h.begins, ← hrecord]
  · rw [Entry.segment, if_neg hdirectory]
    exact h.entry?_name he

lemma Addressable.apart (he : e ∈ v.entries) :
    e.segment ≠ "" ∧ Text.Apart '!' '/' e.segment.toList ∧ Text.Apart '!' '/' e.name.toList := by
  obtain ⟨_, _, _, _, hnameable, hne⟩ := h.listed he
  have hname : Text.Apart '!' '/' e.name.toList := by
    rw [Text.apart_iff_not_isInfix]
    intro hi
    apply hnameable.noSeparator
    rw [String.toList_append]
    exact hi.trans (List.suffix_append _ _).isInfix
  by_cases hdirectory : e.isDirectory = true
  · obtain ⟨hsegment, hne, _⟩ := h.name_of_isDirectory he hdirectory
    refine ⟨hne, ?_, hname⟩
    rw [hsegment, String.toList_append] at hname
    exact hname.left_of_append
  · rw [Entry.segment, if_neg hdirectory]
    exact ⟨hne, hname, hname⟩

lemma Addressable.mem_of_has (he : v.Has e) :
    e ∈ v.entries := by
  rcases he with he | ⟨name, he⟩
  · exact he
  · obtain ⟨record, hr, rfl⟩ := Option.map_eq_some_iff.mp he
    obtain ⟨bytes, declared, hparse⟩ := h.parsed
    exact List.mem_map_of_mem (h.within.mem_records hparse hr)

lemma Addressable.nested {d : Disk} {w : Jar} (hn : v.nested d e = .ok w)
    (hw : Url.WellNamed w.directory) : ∃ start, w.Addressable start := by
  obtain ⟨hdirectory, rfl⟩ | ⟨_, _, _, _, hopen⟩ := nested_eq_ok_iff.mp hn
  · refine ⟨start ++ e.name, ?_, .inr ?_, h.parsed, hw⟩
    · rw [nestedDirectory, h.begins, Text.toUTF8_append]
    · have hlast := Entry.isDirectory_iff.mp hdirectory
      rw [String.toList_append, List.getLast?_append, hlast]
      rfl
  · exact ⟨"", start_ofView hopen, .inl rfl, exists_parse_of_ofView hopen, hw⟩

end Addressable

end Jar

end JarReader

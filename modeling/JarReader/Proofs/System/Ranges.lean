import JarReader.Proofs.EndRecord.Position
import JarReader.Proofs.System.Still

/-! Whether the archive of an end record that is held lies in the file as it is now. It does if the
file was never longer while it had the identity that it has now. -/

namespace JarReader

open Zip

lemma Zip.Metadata.archiveStart_le {d : Disk} {m : Metadata} {b : ByteArray}
    (h : Metadata.read d (.ofBytes b) = .ok m) : m.endRecord.archiveStart ≤ b.size := by
  obtain ⟨_, _, hlocate, _⟩ := Metadata.read_eq_ok_iff.mp h
  obtain ⟨e, hstands, hsum⟩ := EndRecord.exists_standsAt (View.whole_ofBytes d b) hlocate
  rw [View.bytes_ofBytes] at hstands
  have hsize := EndRecord.le_size_of_standsAt hstands
  omega

section Held

variable {seen : List (FileIdentity × ByteArray)} {s : System}

lemma Parsed.after_openJar (hs : Parsed seen s.metadata) {path : String}
    (hseen : ∀ x, s.disk.sighting? path = some x → x ∈ seen) (useCache : Bool) :
    Parsed seen (s.openJar useCache path).2.metadata := by
  cases hv : View.openFile s.disk path with
  | error failure =>
    simp only [System.openJar, hv]
    exact hs
  | ok v =>
    have hafter := hs.after_metadataOf hv hseen useCache
    obtain ⟨c, hc⟩ := s.metadataOf_snd useCache path v
    obtain ⟨n, hn⟩ := System.openJar_of_metadataOf hv (Prod.ext rfl hc)
    rw [hc] at hafter
    rw [hn]
    exact hafter

lemma Parsed.after_connect (hs : Parsed seen s.metadata) (h : Handler) {url : String}
    (hseen : ∀ x ∈ ((JarUrl.parse url).toOption.map (·.file)).bind s.disk.sighting?, x ∈ seen) :
    Parsed seen (h.connect s url).2.2.metadata := by
  rcases h.connect_system s url with hc | ⟨parts, n, hparts, hc⟩
  · rw [hc]
    exact hs
  · rw [hparts] at hseen
    rw [hc]
    rcases h.root_system s parts.file with hr | hr
    · rw [hr]
      exact hs
    · rw [hr]
      exact hs.after_openJar hseen h.useCache

lemma Parsed.step {p : Process} (hp : Parsed seen p.system.metadata) {act : Act}
    (hseen : ∀ x ∈ act.path?.bind p.system.disk.sighting?, x ∈ seen) :
    Parsed seen (p.step act).system.metadata := by
  cases act with
  | change change => exact hp
  | openJar useCache path => exact hp.after_openJar hseen useCache
  | connect i url => exact hp.after_connect (p.handlers i) hseen
  | closeRoots i => exact hp
  | clearCache => exact .empty

lemma Parsed.run {p : Process} (hp : Parsed seen p.system.metadata) {acts : List Act}
    (hseen : ∀ x ∈ p.sightings acts, x ∈ seen) : Parsed seen (p.run acts).system.metadata := by
  induction acts generalizing p with
  | nil => exact hp
  | cons act acts ih =>
    refine ih (hp.step fun x hx => hseen x ?_) fun x hx => hseen x ?_
    · exact List.mem_append_left _ (Option.mem_toList.mpr hx)
    · exact List.mem_append_right _ hx

lemma Parsed.source (hs : Parsed seen s.metadata) {useCache : Bool} {path : String} {v : View}
    {m : Metadata} (hv : View.openFile s.disk path = .ok v)
    (hm : (s.metadataOf useCache path v).1 = .ok m) :
    ∃ I b, FileIdentity.ofPath s.disk path = .ok I ∧ (b.size = v.length ∨ (I, b) ∈ seen) ∧
      ∀ d, Metadata.read d (.ofBytes b) = .ok m := by
  obtain ⟨I, id, hi, _, rfl, _⟩ := exists_identity_of_openFile hv
  have hfresh (h : Metadata.read s.disk (fileView s.disk id path) = .ok m) :
      ∃ I' b, FileIdentity.ofPath s.disk path = .ok I' ∧
        (b.size = (fileView s.disk id path).length ∨ (I', b) ∈ seen) ∧
        ∀ d, Metadata.read d (.ofBytes b) = .ok m :=
    ⟨I, s.disk.content id, hi, .inl rfl, fun d => (read_content s.disk d id path).trans h⟩
  cases useCache with
  | false => exact hfresh hm
  | true =>
    simp only [System.metadataOf, hi, if_true, Cache.getOrParse] at hm
    cases hg : s.metadata.get? I with
    | some held =>
      simp only [hg, Except.ok.injEq] at hm
      subst hm
      obtain ⟨b, hb, hread⟩ := hs I held hg
      exact ⟨I, b, hi, .inr hb, hread⟩
    | none =>
      cases hread : Metadata.read s.disk (fileView s.disk id path) with
      | error failure => simp only [hg, hread, reduceCtorEq] at hm
      | ok fresh =>
        simp only [hg, hread, Except.ok.injEq] at hm
        exact hfresh (hm ▸ hread)

end Held

namespace System

variable {s : System} {useCache : Bool} {path : String} {v : View} {m : Metadata}

lemma openJar_of_archive (hv : View.openFile s.disk path = .ok v)
    (hm : (s.metadataOf useCache path v).1 = .ok m) :
    (s.openJar useCache path).1 =
      (m.endRecord.archive v).map fun archive =>
        { root := path, pathFromRoot := "", kind := .direct, archive := archive,
          endRecord := m.endRecord, directory := m.directory, start := .empty,
          opening := s.openings } := by
  obtain ⟨c, hc⟩ := s.metadataOf_snd useCache path v
  obtain ⟨n, hn⟩ := openJar_of_metadataOf hv (Prod.ext hm hc)
  rw [hn]
  cases ha : m.endRecord.archive v with
  | error failure => simp [Jar.ofMetadata, ha, bind, Except.bind, Except.map]
  | ok archive => simp [Jar.ofMetadata, ha, bind, Except.bind, Except.map, pure, Except.pure,
      Jar.numbered]

end System

namespace Process

/-- An end record may be held from when the file was another, but its archive lies in the file as it
is now, and the jar is opened, unless the file was longer when it was seen with the same identity. -/
theorem archive_inRange {d : Disk} {useCache : Nat → Bool} {acts : List Act} {cached : Bool}
    {path : String} {v : View} {m : Metadata}
    (hv : View.openFile ((start d useCache).run acts).system.disk path = .ok v)
    (hm : (((start d useCache).run acts).system.metadataOf cached path v).1 = .ok m)
    (unshortened : ∀ x ∈ (start d useCache).sightings acts,
      FileIdentity.ofPath ((start d useCache).run acts).system.disk path = .ok x.1 →
        x.2.size ≤ v.length) :
    m.endRecord.archiveStart ≤ v.length ∧
      (∃ archive, m.endRecord.archive v = .ok archive ∧
        archive.length + m.endRecord.archiveStart = v.length) ∧
      ∃ j, (((start d useCache).run acts).system.openJar cached path).1 = .ok j := by
  -- Files may have changed and kept their identities, so only the sizes seen can bound the start.
  have hparsed : Parsed ((start d useCache).sightings acts)
      ((start d useCache).run acts).system.metadata :=
    Parsed.run (p := start d useCache) .empty fun _ hx => hx
  obtain ⟨I, b, hi, hb, hread⟩ := hparsed.source hv hm
  have hlength : b.size ≤ v.length := hb.elim Nat.le_of_eq fun hseen => unshortened _ hseen hi
  have hstart : m.endRecord.archiveStart ≤ v.length :=
    Nat.le_trans (Metadata.archiveStart_le (hread d)) hlength
  have harchive := EndRecord.archive_eq hstart
  refine ⟨hstart, ⟨_, harchive, Nat.sub_add_cancel hstart⟩, ?_⟩
  rw [System.openJar_of_archive hv hm, harchive]
  exact ⟨_, rfl⟩

def emptyJar : ByteArray := (EndFields.encode ⟨0, 0, 0, 0, 0, 0, 0⟩).toByteArray

def script : ByteArray := "#!/bin/sh\nexec java -jar $0\n".toUTF8

/-- A jar of 22 bytes behind a script of 28 is opened, and its file then overwritten at the same
time. -/
def overwritten (bytes : ByteArray) : List Act :=
  [.change (.write "/a.jar" (script ++ emptyJar) 1), .openJar true "/a.jar",
    .change (.write "/a.jar" bytes 1)]

def afterwards (bytes : ByteArray) : System :=
  ((start (.empty []) fun _ => true).run (overwritten bytes)).system

lemma exists_combined (bytes : ByteArray) (length : Nat)
    (h : (View.openFile (afterwards bytes).disk "/a.jar").toOption.any (fun v =>
      v.length = length && ((afterwards bytes).metadataOf true "/a.jar" v).1.toOption.any fun m =>
        m.endRecord.archiveStart = 28) = true) :
    ∃ v m, View.openFile (afterwards bytes).disk "/a.jar" = .ok v ∧
      ((afterwards bytes).metadataOf true "/a.jar" v).1 = .ok m ∧ v.length = length ∧
      m.endRecord.archiveStart = 28 := by
  obtain ⟨v, hv, hlength⟩ := Jar.exists_eq_ok_of_any h
  rw [Bool.and_eq_true, decide_eq_true_eq] at hlength
  obtain ⟨m, hm, hstart⟩ := Jar.exists_eq_ok_of_any hlength.2
  exact ⟨v, m, hv, hm, hlength.1, of_decide_eq_true hstart⟩

theorem archive_inRange_lengthened :
    ∃ v m, View.openFile (afterwards (script ++ script ++ emptyJar)).disk "/a.jar" = .ok v ∧
      ((afterwards (script ++ script ++ emptyJar)).metadataOf true "/a.jar" v).1 = .ok m ∧
      (∀ x ∈ (start (.empty []) fun _ => true).sightings
          (overwritten (script ++ script ++ emptyJar)),
        FileIdentity.ofPath (afterwards (script ++ script ++ emptyJar)).disk "/a.jar" = .ok x.1 →
          x.2.size ≤ v.length) ∧
      v.length = 78 ∧ m.endRecord.archiveStart = 28 ∧
      ∃ j, ((afterwards (script ++ script ++ emptyJar)).openJar true "/a.jar").1 = .ok j := by
  obtain ⟨v, m, hv, hm, hlength, hstart⟩ :=
    exists_combined (script ++ script ++ emptyJar) 78 (by decide +kernel)
  have hseen : ∀ x ∈ (start (.empty []) fun _ => true).sightings
      (overwritten (script ++ script ++ emptyJar)), x.2.size ≤ 78 := by
    decide +kernel
  have unshortened (x : FileIdentity × ByteArray)
      (hx : x ∈ (start (.empty []) fun _ => true).sightings
        (overwritten (script ++ script ++ emptyJar))) (_ : FileIdentity.ofPath
          (afterwards (script ++ script ++ emptyJar)).disk "/a.jar" = .ok x.1) :
      x.2.size ≤ v.length := hlength ▸ hseen x hx
  exact ⟨v, m, hv, hm, unshortened, hlength, hstart, (archive_inRange hv hm unshortened).2.2⟩

/-- Only the jar is left of the file, and the end record that is held starts it behind the end: the
subtraction goes below zero, and the process ends. -/
theorem not_inRange_shortened :
    ∃ v m, View.openFile (afterwards emptyJar).disk "/a.jar" = .ok v ∧
      ((afterwards emptyJar).metadataOf true "/a.jar" v).1 = .ok m ∧
      v.length < m.endRecord.archiveStart ∧
      m.endRecord.archive v = .error .overflow ∧
      ((afterwards emptyJar).openJar true "/a.jar").1 = .error .overflow := by
  obtain ⟨v, m, hv, hm, hlength, hstart⟩ :=
    exists_combined emptyJar 22 (by decide +kernel)
  have hlt : v.length < m.endRecord.archiveStart := by omega
  have harchive := EndRecord.archive_eq_overflow hlt
  refine ⟨v, m, hv, hm, hlt, harchive, ?_⟩
  rw [System.openJar_of_archive hv hm, harchive]
  rfl

end Process
end JarReader

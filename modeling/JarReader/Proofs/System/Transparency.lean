import JarReader.Proofs.Cache.Reentry
import JarReader.Proofs.Jar.Opening
import JarReader.Proofs.Jar.Twin
import JarReader.Proofs.System.History
import JarReader.Zip.Writing

/-! As long as no identity of a file is seen with two contents, what is held of files cannot be told
from what would be read anew. -/

namespace JarReader

open Zip

section Disks

variable {d d' : Disk} {v : View} (h : v.source.bytes d = v.source.bytes d')
include h

lemma View.readExact_of_bytes (i n : Nat) : v.readExact d i n = v.readExact d' i n := by
  simp only [View.readExact, View.read, h]

lemma Zip.EndRecord.locate_of_bytes : EndRecord.locate d v = EndRecord.locate d' v := by
  simp only [EndRecord.locate, EndRecord.locateIn, EndRecord.decode, EndRecord.zip64Record?,
    EndRecord.zip64RecordAt, View.readExact_of_bytes h]

lemma Zip.Metadata.read_of_bytes : Metadata.read d v = Metadata.read d' v := by
  simp only [Metadata.read, EndRecord.locate_of_bytes h]
  congr 1
  funext r
  cases ha : r.archive v with
  | error failure => rfl
  | ok archive =>
    have hdirectory : r.readDirectory d archive = r.readDirectory d' archive := by
      simp only [EndRecord.readDirectory]
      cases hp : archive.part r.directoryOffset r.directorySize with
      | error failure => rfl
      | ok view =>
        have hb : view.source.bytes d = view.source.bytes d' := by
          rw [View.source_of_part hp, View.source_of_part (EndRecord.part_of_archive ha),
            h]
        exact View.readExact_of_bytes hb 0 r.directorySize
    simp only [bind, Except.bind, hdirectory]

end Disks

section Files

variable {d : Disk} {path : String}

def fileView (d : Disk) (id : FileId) (path : String) : View :=
  ⟨.file id path, 0, (d.content id).size⟩

lemma whole_fileView (d : Disk) (id : FileId) (path : String) : (fileView d id path).Whole d := by
  simp [fileView, View.Whole, Source.bytes]

lemma bytes_fileView (d : Disk) (id : FileId) (path : String) :
    (fileView d id path).bytes d = d.content id := by
  simp [View.bytes_eq, fileView, Source.bytes]

lemma alike_fileView (d : Disk) (id : FileId) (path : String) :
    (fileView d id path).Alike d (.ofBytes (d.content id)) :=
  bytes_fileView d id path ▸ (whole_fileView d id path).alike_ofBytes

lemma read_content (d d' : Disk) (id : FileId) (path : String) :
    Metadata.read d' (.ofBytes (d.content id)) = Metadata.read d (fileView d id path) := by
  rw [Metadata.read_alike (alike_fileView d id path)]
  exact Metadata.read_of_bytes rfl

lemma exists_identity_of_openFile {v : View} (h : View.openFile d path = .ok v) :
    ∃ I id, FileIdentity.ofPath d path = .ok I ∧ I.file? = some id ∧ v = fileView d id path ∧
      d.sighting? path = some (I, d.content id) := by
  simp only [View.openFile, Disk.openFile] at h
  cases hf : d.find path with
  | error fault => simp [hf] at h
  | ok found =>
    obtain ⟨location, node⟩ := found
    cases node with
    | file id =>
      simp only [hf, Except.ok.injEq] at h
      subst h
      have hi : FileIdentity.ofPath d path =
          .ok ⟨location, (d.file? id).map (·.modified), some id⟩ := by
        simp only [FileIdentity.ofPath, hf]
      exact ⟨_, id, hi, rfl, rfl, by simp only [Disk.sighting?, hi, Option.map_some]⟩
    | directory => simp [hf] at h
    | link target => simp [hf] at h

lemma openFile_of_identity {I : FileIdentity} {id : FileId} (h : FileIdentity.ofPath d path = .ok I)
    (hid : I.file? = some id) :
    View.openFile d path = .ok (fileView d id path) ∧ d.sighting? path = some (I, d.content id) := by
  refine ⟨?_, by simp only [Disk.sighting?, h, hid, Option.map_some]⟩
  simp only [FileIdentity.ofPath] at h
  simp only [View.openFile, Disk.openFile]
  cases hf : d.find path with
  | error fault => simp [hf] at h
  | ok found =>
    obtain ⟨location, node⟩ := found
    cases node with
    | file id' =>
      simp only [hf, Except.ok.injEq] at h
      subst h
      cases hid
      rfl
    | directory =>
      simp only [hf, Except.ok.injEq] at h
      subst h
      cases hid
    | link target =>
      simp only [hf, Except.ok.injEq] at h
      subst h
      cases hid

lemma twin_fileView (d : Disk) (id : FileId) (path path' : String) :
    Matched (Jar.Twin d) (Jar.ofView d (fileView d id path) path "" .direct)
      (Jar.ofView d (fileView d id path') path' "" .direct) := by
  have ha : (fileView d id path).Alike d (fileView d id path') := ⟨rfl, fun _ _ => rfl⟩
  refine (Jar.ofView_alike ha path path' "" "" Iff.rfl).mono ?_
  rintro j k ⟨hjk, hj, hk⟩
  exact ⟨hjk, hk.kind.trans hj.kind.symm, hk.path.trans hj.path.symm⟩

lemma ofView_fileView {d d' : Disk} {id : FileId} (h : d.content id = d'.content id)
    (path : String) :
    Jar.ofView d (fileView d id path) path "" .direct =
      Jar.ofView d' (fileView d' id path) path "" .direct := by
  have hv : fileView d id path = fileView d' id path := by rw [fileView, h, ← fileView]
  have hb : (fileView d' id path).source.bytes d = (fileView d' id path).source.bytes d' := h
  simp only [hv, Jar.ofView, Metadata.read_of_bytes hb]

/-- The jar at `path`, read from what the file holds now. -/
def freshJar (d : Disk) (path : String) : Except Failure Jar := do
  let v ← View.openFile d path
  Jar.ofView d v path "" .direct

lemma freshJar_of_ofPath {failure : Failure} (h : FileIdentity.ofPath d path = .error failure) :
    freshJar d path = .error failure := by
  simp only [FileIdentity.ofPath] at h
  cases hf : d.find path with
  | error fault =>
    simp only [hf, Except.error.injEq] at h
    subst h
    simp only [freshJar, View.openFile, Disk.openFile, hf, bind, Except.bind]
  | ok found =>
    obtain ⟨location, node⟩ := found
    cases node <;> simp [hf] at h

def freshConnection (d : Disk) (url : String) : Except Failure Connection := do
  let parts ← JarUrl.parse url
  let jar ← freshJar d parts.file
  let jar ← (Handler.descend (.start d) jar parts.nested).1
  Handler.connection jar parts.entry

end Files

lemma System.metadataOf_snd (s : System) (useCache : Bool) (path : String) (v : View) :
    ∃ c, (s.metadataOf useCache path v).2 = { s with metadata := c } := by
  cases useCache with
  | false => exact ⟨s.metadata, rfl⟩
  | true =>
    simp only [metadataOf, if_true]
    cases FileIdentity.ofPath s.disk path with
    | error failure => exact ⟨s.metadata, rfl⟩
    | ok I => exact ⟨_, rfl⟩

lemma System.openJar_of_metadataOf {s : System} {useCache : Bool} {path : String} {v : View}
    {result : Except Failure Metadata} {c : MetadataCache}
    (hv : View.openFile s.disk path = .ok v)
    (h : s.metadataOf useCache path v = (result, { s with metadata := c })) :
    ∃ n, s.openJar useCache path =
      ((result >>= fun m => Jar.ofMetadata m v path "" .direct).map (·.numbered s.openings),
        ⟨s.disk, c, s.manifests, n⟩) := by
  simp only [openJar, hv, h]
  cases result with
  | error failure => exact ⟨s.openings, rfl⟩
  | ok m =>
    simp only [bind, Except.bind]
    cases Jar.ofMetadata m v path "" .direct with
    | error failure => exact ⟨s.openings, rfl⟩
    | ok j => exact ⟨s.openings + 1, rfl⟩

section Held

variable (seen : List (FileIdentity × ByteArray))

/-- What is held was parsed from the contents with which the identities were seen. -/
def Parsed (c : MetadataCache) : Prop :=
  ∀ I m, c.get? I = some m → ∃ b, (I, b) ∈ seen ∧ ∀ d, Metadata.read d (.ofBytes b) = .ok m

def Rooted (h : Handler) : Prop :=
  ∀ root ∈ h.roots, ∃ b, (root.1, b) ∈ seen ∧ ∃ id path n j, root.1.file? = some id ∧
    root.2 = j.numbered n ∧
    ∀ d : Disk, d.content id = b → Jar.ofView d (fileView d id path) path "" .direct = .ok j

structure Sound (p : Process) : Prop where
  parsed : Parsed seen p.system.metadata
  rooted : ∀ i, Rooted seen (p.handlers i)

variable {seen} (honest : Honest seen)

lemma Parsed.empty : Parsed seen .empty := by
  intro I m h
  cases h

lemma Rooted.none {h : Handler} (hroots : h.roots = []) : Rooted seen h := by
  intro root hroot
  rw [hroots] at hroot
  cases hroot

lemma Parsed.after_metadataOf {s : System} (hs : Parsed seen s.metadata) {path : String} {v : View}
    (hv : View.openFile s.disk path = .ok v) (hseen : ∀ x, s.disk.sighting? path = some x → x ∈ seen)
    (useCache : Bool) : Parsed seen (s.metadataOf useCache path v).2.metadata := by
  cases useCache with
  | false => exact hs
  | true =>
    obtain ⟨I, id, hi, _, rfl, hsight⟩ := exists_identity_of_openFile hv
    simp only [System.metadataOf, hi, if_true, Cache.getOrParse]
    cases hg : s.metadata.get? I with
    | some m => exact hs
    | none =>
      cases hm : Metadata.read s.disk (fileView s.disk id path) with
      | error failure => exact hs
      | ok m =>
        simp only [hg]
        intro I' m' hg'
        rw [Cache.get?_insert] at hg'
        by_cases he : I' = I
        · rw [if_pos he] at hg'
          cases hg'
          exact ⟨_, he ▸ hseen _ hsight, fun d => (read_content s.disk d id path).trans hm⟩
        · rw [if_neg he] at hg'
          exact hs I' m' hg'

include honest

lemma Parsed.metadataOf {s : System} (hs : Parsed seen s.metadata) {path : String} {v : View}
    (hv : View.openFile s.disk path = .ok v) (hseen : ∀ x, s.disk.sighting? path = some x → x ∈ seen)
    (useCache : Bool) :
    (s.metadataOf useCache path v).1 = Metadata.read s.disk v ∧
      Parsed seen (s.metadataOf useCache path v).2.metadata := by
  refine ⟨?_, hs.after_metadataOf hv hseen useCache⟩
  cases useCache with
  | false => rfl
  | true =>
    obtain ⟨I, id, hi, _, rfl, hsight⟩ := exists_identity_of_openFile hv
    simp only [System.metadataOf, hi, if_true, Cache.getOrParse]
    cases hg : s.metadata.get? I with
    | some m =>
      obtain ⟨b, hb, hm⟩ := hs I m hg
      obtain rfl : b = s.disk.content id := honest _ hb _ (hseen _ hsight) rfl
      exact (hm s.disk).symm.trans (read_content s.disk s.disk id path)
    | none =>
      cases hm : Metadata.read s.disk (fileView s.disk id path) with
      | error failure => rfl
      | ok m => simp only [hg]

lemma Parsed.openJar {s : System} (hs : Parsed seen s.metadata) {path : String}
    (hseen : ∀ x, s.disk.sighting? path = some x → x ∈ seen) (useCache : Bool) :
    (s.openJar useCache path).1 = (freshJar s.disk path).map (·.numbered s.openings) ∧
      Parsed seen (s.openJar useCache path).2.metadata ∧
      (s.openJar useCache path).2.disk = s.disk := by
  cases hv : View.openFile s.disk path with
  | error failure => simp [System.openJar, freshJar, hv, hs, bind, Except.bind, Except.map]
  | ok v =>
    obtain ⟨hread, hparsed⟩ := hs.metadataOf honest hv hseen useCache
    obtain ⟨c, hc⟩ := s.metadataOf_snd useCache path v
    obtain ⟨n, hn⟩ := System.openJar_of_metadataOf hv (Prod.ext hread hc)
    rw [hc] at hparsed
    rw [hn, freshJar, hv]
    exact ⟨rfl, hparsed, rfl⟩

lemma Rooted.root {h : Handler} (hh : Rooted seen h) {s : System} (hs : Parsed seen s.metadata)
    {path : String} (hseen : ∀ x, s.disk.sighting? path = some x → x ∈ seen) :
    Matched (Jar.Twin s.disk) (h.root s path).1 (freshJar s.disk path) ∧
      Rooted seen (h.root s path).2.1 ∧ Parsed seen (h.root s path).2.2.metadata ∧
      (h.root s path).2.2.disk = s.disk := by
  simp only [Handler.root]
  cases hi : FileIdentity.ofPath s.disk path with
  | error failure => exact ⟨freshJar_of_ofPath hi ▸ .error failure, hh, hs, rfl⟩
  | ok I =>
    simp only
    cases hl : h.roots.lookup I with
    | some jar =>
      obtain ⟨_, _, hroots, _⟩ := List.lookup_eq_some_iff.mp hl
      have hmem : (I, jar) ∈ h.roots := hroots ▸ List.mem_append_right _ List.mem_cons_self
      obtain ⟨b, hb, id, path', n, j, hid, rfl, hj⟩ := hh (I, jar) hmem
      obtain ⟨hv, hsight⟩ := openFile_of_identity hi hid
      obtain rfl : b = s.disk.content id := honest _ hb _ (hseen _ hsight) rfl
      refine ⟨?_, hh, hs, rfl⟩
      have htwin := twin_fileView s.disk id path' path
      rw [hj s.disk rfl] at htwin
      simp only [freshJar, hv, bind, Except.bind]
      generalize Jar.ofView s.disk (fileView s.disk id path) path "" .direct = fresh at htwin ⊢
      cases htwin with
      | ok hjk => exact .ok (hjk.numbered n _)
    | none =>
      obtain ⟨hfst, hparsed, hdisk⟩ := hs.openJar honest hseen h.useCache
      generalize s.openJar h.useCache path = found at hfst hparsed hdisk ⊢
      obtain ⟨result, s'⟩ := found
      obtain rfl := hfst
      cases hf : freshJar s.disk path with
      | error failure => exact ⟨.error failure, hh, hparsed, hdisk⟩
      | ok j =>
        refine ⟨.ok ?_, ?_, hparsed, hdisk⟩
        · exact (Jar.Twin.refl s.disk j).numbered s.openings j.opening
        · intro root hroot
          rcases List.mem_cons.mp hroot with rfl | hold
          · cases hv : View.openFile s.disk path with
            | error failure => simp [freshJar, hv, bind, Except.bind] at hf
            | ok v =>
              obtain ⟨I', id, hi', hid, rfl, hsight⟩ := exists_identity_of_openFile hv
              obtain rfl : I = I' := by simpa [hi] using hi'
              simp only [freshJar, hv, bind, Except.bind] at hf
              refine ⟨s.disk.content id, hseen _ hsight, id, path, s.openings, j, hid, rfl, ?_⟩
              intro d hd
              rw [ofView_fileView hd, hf]
          · exact hh root (List.mem_filter.mp hold).1

lemma Rooted.connect {h : Handler} (hh : Rooted seen h) {s : System}
    (hs : Parsed seen s.metadata) {url : String}
    (hseen : ∀ x ∈ ((JarUrl.parse url).toOption.map (·.file)).bind s.disk.sighting?, x ∈ seen) :
    Matched (Connection.Twin s.disk) (h.connect s url).1 (freshConnection s.disk url) ∧
      Rooted seen (h.connect s url).2.1 ∧ Parsed seen (h.connect s url).2.2.metadata ∧
      (h.connect s url).2.2.disk = s.disk := by
  simp only [Handler.connect, freshConnection]
  cases hp : JarUrl.parse url with
  | error failure => exact ⟨.error failure, hh, hs, rfl⟩
  | ok parts =>
    rw [hp] at hseen
    obtain ⟨hroot, hrooted, hparsed, hdisk⟩ := hh.root honest hs hseen
    simp only [bind, Except.bind]
    generalize h.root s parts.file = found at hroot hrooted hparsed hdisk ⊢
    obtain ⟨result, h', s'⟩ := found
    simp only at hroot hrooted hparsed hdisk
    generalize freshJar s.disk parts.file = fresh at hroot ⊢
    cases hroot with
    | error failure => exact ⟨.error failure, hrooted, hparsed, hdisk⟩
    | @ok j k hjk =>
      have hdescend := Handler.descend_twin (t := .start s.disk) hdisk.symm (hdisk ▸ hjk) parts.nested
      obtain ⟨n, hn⟩ := Handler.descend_snd s' j parts.nested
      rw [hdisk] at hdescend
      simp only
      generalize Handler.descend s' j parts.nested = inner at hdescend hn ⊢
      generalize (Handler.descend (.start s.disk) k parts.nested).1 = fresh at hdescend ⊢
      obtain ⟨result, s''⟩ := inner
      cases hn
      cases hdescend with
      | error failure => exact ⟨.error failure, hrooted, hparsed, hdisk⟩
      | ok hil => exact ⟨Handler.connection_twin hil parts.entry, hrooted, hparsed, hdisk⟩

lemma Sound.step {p : Process} (hp : Sound seen p) {act : Act}
    (hseen : ∀ x ∈ act.path?.bind p.system.disk.sighting?, x ∈ seen) : Sound seen (p.step act) := by
  obtain ⟨hparsed, hrooted⟩ := hp
  have hupdate {h : Handler} (hh : Rooted seen h) (i k : Nat) :
      Rooted seen (Function.update p.handlers i h k) := by
    by_cases hk : k = i
    · rw [hk, Function.update_self]
      exact hh
    · rw [Function.update_of_ne hk]
      exact hrooted k
  cases act with
  | change change => exact ⟨hparsed, hrooted⟩
  | openJar useCache path =>
    exact ⟨(hparsed.openJar honest hseen useCache).2.1, hrooted⟩
  | connect i url =>
    obtain ⟨_, hh, hs, _⟩ := (hrooted i).connect honest hparsed hseen
    exact ⟨hs, hupdate hh i⟩
  | closeRoots i => exact ⟨hparsed, hupdate (.none rfl) i⟩
  | clearCache => exact ⟨.empty, hrooted⟩

lemma Sound.run {p : Process} (hp : Sound seen p) {acts : List Act}
    (hseen : ∀ x ∈ p.sightings acts, x ∈ seen) : Sound seen (p.run acts) := by
  induction acts generalizing p with
  | nil => exact hp
  | cons act acts ih =>
    refine ih (hp.step honest fun x hx => hseen x ?_) fun x hx => hseen x ?_
    · exact List.mem_append_left _ (Option.mem_toList.mpr hx)
    · exact List.mem_append_right _ hx

omit honest in
lemma Sound.start (d : Disk) (useCache : Nat → Bool) : Sound seen (.start d useCache) :=
  ⟨.empty, fun _ => .none rfl⟩

end Held

structure Jar.Interchangeable (d : Disk) (j k : Jar) : Prop where
  same : Same d 0 j k
  kind : k.kind = j.kind
  path : k.pathFromRoot = j.pathFromRoot

structure Connection.Interchangeable (d : Disk) (c e : Connection) : Prop where
  jar : c.jar.Interchangeable d e.jar
  entry? : e.entry? = c.entry?

lemma Jar.Twin.interchangeable {d : Disk} {j k : Jar} (h : Twin d j k) : Interchangeable d j k :=
  ⟨h.alike.sameTo, h.kind, h.path⟩

lemma Connection.Twin.interchangeable {d : Disk} {c e : Connection} (h : Twin d c e) :
    Interchangeable d c e := ⟨h.jar.interchangeable, h.entry?⟩

namespace Process

def replacement : List Act :=
  [.change (.write "/a.jar" (Archive.mk [⟨"x".toUTF8, "1".toUTF8, .empty, 0⟩] .empty false).bytes 1),
    .openJar true "/a.jar", .connect 0 "jar:file:/a.jar!/x", .change (.rename "/a.jar" "/b.jar"),
    .change (.write "/a.jar" (Archive.mk [⟨"y".toUTF8, "2".toUTF8, .empty, 0⟩] .empty false).bytes 1),
    .change (.link "/l.jar" "a.jar"), .connect 0 "jar:file:/b.jar!/x"]

end Process
end JarReader

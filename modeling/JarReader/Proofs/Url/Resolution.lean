import JarReader.Proofs.Disk.Walk
import JarReader.Proofs.System.Still
import JarReader.Proofs.Url.Naming
import JarReader.Proofs.Url.Text
import JarReader.Proofs.Writing.Reading

namespace JarReader

open Zip

namespace Jar

/-- The jars and directories that are reached from `j`, each opened in the one before, with names that
URLs can tell apart in all their archives. -/
inductive Chain (d : Disk) (j : Jar) : Jar → Prop
  | here : Url.WellNamed j.directory → Chain d j j
  | into {v w : Jar} {e : Entry} : Chain d j v → v.Has e → v.nested d e = .ok w →
      Url.WellNamed w.directory → Chain d j w
  | numbered {v : Jar} (n : Nat) : Chain d j v → Chain d j (v.numbered n)

structure Addressed (d : Disk) (j v : Jar) (segments : List String) : Prop where
  root : v.root = j.root
  path : v.pathFromRoot = String.join (segments.map (Url.separator ++ ·))
  nonempty : "" ∉ segments
  noSeparator : ∀ segment ∈ segments, Text.Apart '!' '/' segment.toList
  addressable : ∃ start, v.Addressable start
  descend : ∃ w, (Handler.descend (.start d) j segments).1 = .ok w ∧ Twin d v w

variable {d : Disk} {j v w : Jar} {e : Entry} {segments : List String}

lemma Addressed.here {start : String} (h : j.Addressable start) (hpath : j.pathFromRoot = "") :
    Addressed d j j [] where
  root := rfl
  path := hpath
  nonempty := List.not_mem_nil
  noSeparator _ hs := nomatch hs
  addressable := ⟨start, h⟩
  descend := ⟨j, rfl, .refl d j⟩

lemma descend_concat {s : System} {segment : String} :
    (Handler.descend s j (segments ++ [segment])).1 =
      match Handler.descend s j segments with
      | (.error failure, _) => .error failure
      | (.ok k, s) => (Handler.descend s k [segment]).1 := by
  induction segments generalizing s j with
  | nil => rfl
  | cons first segments ih =>
    simp only [List.cons_append, Handler.descend]
    cases s.nested? j first with
    | mk result s' =>
      cases result with
      | error failure => rfl
      | ok found? =>
        cases found? with
        | none => rfl
        | some found => exact ih

lemma Addressed.into (h : Addressed d j v segments) (he : e ∈ v.entries)
    (hn : v.nested d e = .ok w) (hw : Url.WellNamed w.directory) :
    Addressed d j w (segments ++ [e.segment]) := by
  obtain ⟨start, haddressable⟩ := h.addressable
  obtain ⟨hne, hsegment, _⟩ := haddressable.apart he
  obtain ⟨hroot, hpath⟩ := path_of_nested hn
  constructor
  case root => rw [hroot, h.root]
  case path =>
    rw [hpath, h.path, ← String.toList_inj]
    simp
  case nonempty => simpa [h.nonempty] using hne.symm
  case noSeparator =>
    intro segment hs
    rcases List.mem_append.mp hs with hs | hs
    · exact h.noSeparator segment hs
    · rwa [List.mem_singleton.mp hs]
  case addressable => exact haddressable.nested hn hw
  case descend =>
    obtain ⟨k, hk, hvk⟩ := h.descend
    obtain ⟨n, hdisk⟩ := Handler.descend_snd (.start d) j segments
    have hfound : v.nested? d e.segment = .ok (some w) := by
      rw [Jar.nested?, haddressable.entry?_segment he]
      simp only [hn]
      rfl
    have hmatched := hvk.nested? e.segment
    rw [hfound] at hmatched
    rw [descend_concat]
    generalize Handler.descend (.start d) j segments = found at hk hdisk ⊢
    obtain ⟨result, s⟩ := found
    cases hk
    cases hdisk
    simp only [Handler.descend, System.nested?, System.start]
    generalize k.nested? d e.segment = inner at hmatched ⊢
    cases hmatched with
    | ok hrel =>
      cases hrel with
      | some hwl => exact ⟨_, rfl, hwl.numbered w.opening _⟩

lemma Addressed.numbered (h : Addressed d j v segments) (n : Nat) :
    Addressed d j (v.numbered n) segments where
  root := h.root
  path := h.path
  nonempty := h.nonempty
  noSeparator := h.noSeparator
  addressable := by
    obtain ⟨start, haddressable⟩ := h.addressable
    exact ⟨start, haddressable.begins, haddressable.slash, haddressable.parsed, haddressable.named⟩
  descend := by
    obtain ⟨w, hw, hvw⟩ := h.descend
    exact ⟨w, hw, hvw.numbered n w.opening⟩

lemma Chain.addressed (hpath : j.pathFromRoot = "") (hstart : j.start = .empty)
    (hparse : ∃ bytes declared, Directory.parse bytes declared = .ok j.directory)
    (h : Chain d j v) : ∃ segments, Addressed d j v segments := by
  induction h with
  | here hnamed =>
    have haddressable : j.Addressable "" := ⟨hstart, .inl rfl, hparse, hnamed⟩
    exact ⟨[], .here haddressable hpath⟩
  | into _ he hn hnamed ih =>
    obtain ⟨segments, h⟩ := ih
    obtain ⟨start, haddressable⟩ := h.addressable
    exact ⟨_, h.into (haddressable.mem_of_has he) hn hnamed⟩
  | numbered n _ ih =>
    obtain ⟨segments, h⟩ := ih
    exact ⟨segments, h.numbered n⟩

lemma Addressed.entryUrl (h : Addressed d j v segments) (home : String) (e : Entry) :
    v.entryUrl home e = JarUrl.text home ⟨j.root, segments, e.name⟩ := by
  simp only [Jar.entryUrl, Jar.url, JarUrl.text, h.root, h.path, Text.Percent.encode_join,
    List.map_map, Function.comp_def, Text.Percent.encode_append,
    JarUrl.encode_separator]

lemma Addressed.url (h : Addressed d j v segments) (home : String) :
    v.url home = JarUrl.text home ⟨j.root, segments, ""⟩ := by
  have hempty : Text.Percent.encode "" = "" := by decide +kernel
  simp only [Jar.url, JarUrl.text, h.root, h.path, Text.Percent.encode_join, List.map_map,
    Function.comp_def, Text.Percent.encode_append, JarUrl.encode_separator, hempty,
    String.append_empty]

lemma Addressed.parse_text (h : Addressed d j v segments) {home entry : String}
    (hfile : Url.Literal (Path.absolute home j.root)) (hentry : Text.Apart '!' '/' entry.toList) :
    JarUrl.parse (JarUrl.text home ⟨j.root, segments, entry⟩) =
      .ok ⟨Path.absolute home j.root, segments, entry⟩ := by
  refine JarUrl.parse_text hfile h.nonempty fun part hpart => ?_
  rcases List.mem_append.mp hpart with hpart | hpart
  · exact h.noSeparator part hpart
  · rwa [List.mem_singleton.mp hpart]

end Jar

structure Connection.LeadsTo (c : Connection) (v : Jar) (found? : Option Entry) : Prop where
  entry? : c.entry? = found?
  kind : c.jar.kind = v.kind
  path : c.jar.pathFromRoot = v.pathFromRoot
  entries : c.jar.entries = v.entries

lemma exists_openFile_of_freshJar {d : Disk} {path : String} {j : Jar}
    (h : freshJar d path = .ok j) :
    ∃ id, d.openFile path = .ok id ∧
      Jar.ofView d (fileView d id path) path "" .direct = .ok j := by
  simp only [freshJar, View.openFile, bind, Except.bind] at h
  cases hid : d.openFile path with
  | error fault => simp [hid] at h
  | ok id =>
    simp only [hid] at h
    exact ⟨id, rfl, h⟩

lemma freshJar_of_openFile {d : Disk} {path : String} {id : FileId} (h : d.openFile path = .ok id) :
    freshJar d path = Jar.ofView d (fileView d id path) path "" .direct := by
  simp only [freshJar, View.openFile, h, bind, Except.bind]
  rfl

lemma Zip.Archive.Writable.exists_freshJar {a : Archive} (h : a.Writable) {d : Disk} {path : String}
    {id : FileId} (hid : d.openFile path = .ok id) (hcontent : d.content id = a.bytes)
    {p : Jar → Bool}
    (hp : (Directory.parse (Archive.directory 0 a.entries).toByteArray a.entries.length).toOption.any
      (fun directory =>
        p ⟨path, "", .direct, fileView d id path, a.endRecord, directory, .empty, 0⟩) = true) :
    ∃ j, freshJar d path = .ok j ∧ p j = true := by
  rw [freshJar_of_openFile hid]
  exact h.exists_open (whole_fileView d id path) ((bytes_fileView d id path).trans hcontent) path ""
    .direct hp

lemma freshJar_absolute {d : Disk} {path : String} {j : Jar} (home : String)
    (hpath : Url.Expressible path) (h : freshJar d path = .ok j) :
    Url.Literal (Path.absolute home path) ∧
      ∃ k, freshJar d (Path.absolute home path) = .ok k ∧ Jar.Twin d j k := by
  obtain ⟨id, hid, hj⟩ := exists_openFile_of_freshJar h
  have hid' := Disk.openFile_absolute home hpath.absolute hpath.single hid
  have htwin := twin_fileView d id path (Path.absolute home path)
  refine ⟨Url.literal_absolute home hpath.absolute hpath.noBackslash hpath.noSeparator, ?_⟩
  rw [freshJar_of_openFile hid']
  rw [hj] at htwin
  generalize Jar.ofView d (fileView d id (Path.absolute home path)) (Path.absolute home path) ""
    .direct = fresh at htwin ⊢
  cases htwin with
  | ok hjk => exact ⟨_, rfl, hjk⟩

section Connect

variable {d : Disk} {j v : Jar} {segments : List String} (hv : Jar.Addressed d j v segments)
  {file : String} (hj : ∃ k, freshJar d file = .ok k ∧ Jar.Twin d j k)
include hv hj

lemma freshConnection_of_parse {url entry : String}
    (hurl : JarUrl.parse url = .ok ⟨file, segments, entry⟩) :
    ∃ w, Jar.Twin d v w ∧ freshConnection d url = Handler.connection w entry := by
  obtain ⟨k, hk, hjk⟩ := hj
  obtain ⟨u, hu, hvu⟩ := hv.descend
  have hmatched := Handler.descend_twin (s := .start d) (t := .start d) rfl hjk segments
  rw [hu] at hmatched
  simp only [freshConnection, hurl, hk, bind, Except.bind]
  generalize (Handler.descend (.start d) k segments).1 = inner at hmatched ⊢
  cases hmatched with
  | ok huw => exact ⟨_, hvu.trans huw, rfl⟩

lemma connect_of_parse {q : Process} (hq : q.Still d) (i : Nat) {url entry : String}
    {found? : Option Entry} (hurl : JarUrl.parse url = .ok ⟨file, segments, entry⟩)
    (hentry : ∀ w, Jar.Twin d v w → Handler.connection w entry = .ok ⟨w, found?⟩) :
    ∃ c, ((q.handlers i).connect q.system url).1 = .ok c ∧ c.LeadsTo v found? := by
  obtain ⟨w, hvw, hfresh⟩ := freshConnection_of_parse hv hj hurl
  obtain ⟨seen, honest, ⟨hparsed, hrooted⟩, hdisk, hseen⟩ := hq.sound file
  have hurlSeen : ∀ x ∈ ((JarUrl.parse url).toOption.map (·.file)).bind q.system.disk.sighting?,
      x ∈ seen := by
    rw [hurl, hdisk]
    exact hseen
  obtain ⟨hmatched, _⟩ := (hrooted i).connect honest hparsed hurlSeen
  rw [hdisk, hfresh, hentry w hvw] at hmatched
  generalize ((q.handlers i).connect q.system url).1 = result at hmatched ⊢
  cases hmatched with
  | @ok c _ hc =>
    refine ⟨c, rfl, hc.entry?.symm, ?_, ?_, ?_⟩
    · exact hc.jar.kind.symm.trans hvw.kind
    · exact hc.jar.path.symm.trans hvw.path
    · exact hc.jar.alike.entries.symm.trans hvw.alike.entries

end Connect

namespace Process

lemma Still.freshJar {d : Disk} {p : Process} (hp : p.Still d) {path : String} {useCache : Bool}
    {j : Jar} (hj : (p.system.openJar useCache path).1 = .ok j) :
    ∃ k n, JarReader.freshJar d path = .ok k ∧ j = k.numbered n := by
  obtain ⟨_, hfresh⟩ := hp.openJar useCache path
  rw [hj] at hfresh
  cases hk : JarReader.freshJar d path with
  | error failure =>
    rw [hk] at hfresh
    cases hfresh
  | ok k =>
    rw [hk] at hfresh
    cases hfresh
    exact ⟨k, _, rfl, rfl⟩

/-- The URLs that a jar gives for its entries and for itself lead back to them, through every handler of
every process, as long as no file changes. -/
theorem connect_url {d : Disk} {p q : Process} {path : String} {useCache : Bool} {j v : Jar}
    (hp : p.Still d) (hq : q.Still d) (hpath : Url.Expressible path)
    (hj : (p.system.openJar useCache path).1 = .ok j) (hv : Jar.Chain d j v) (i : Nat) :
    (∀ e ∈ v.entries, ∃ c,
      ((q.handlers i).connect q.system (v.entryUrl d.homeText e)).1 = .ok c ∧
        c.LeadsTo v (some e)) ∧
      ∃ c, ((q.handlers i).connect q.system (v.url d.homeText)).1 = .ok c ∧ c.LeadsTo v none := by
  obtain ⟨k, n, hk, rfl⟩ := hp.freshJar hj
  obtain ⟨_, _, hopen⟩ := exists_openFile_of_freshJar hk
  obtain ⟨rfl, hkpath⟩ : k.root = path ∧ k.pathFromRoot = "" := by
    obtain ⟨_, _, _, _, rfl⟩ := Jar.ofView_eq_ok_iff.mp hopen
    exact ⟨rfl, rfl⟩
  obtain ⟨hliteral, l, hl, hkl⟩ := freshJar_absolute d.homeText hpath hk
  have hfile : ∃ l, freshJar d (Path.absolute d.homeText k.root) = .ok l ∧
      Jar.Twin d (k.numbered n) l := ⟨l, hl, hkl.numbered n l.opening⟩
  have hstart := Jar.start_ofView hopen
  have hindex := Jar.exists_parse_of_ofView hopen
  obtain ⟨segments, haddressed⟩ :=
    Jar.Chain.addressed (j := k.numbered n) hkpath hstart hindex hv
  constructor
  · intro e he
    obtain ⟨start, haddressable⟩ := haddressed.addressable
    obtain ⟨_, _, hname⟩ := haddressable.apart he
    obtain ⟨_, _, _, _, _, hne⟩ := haddressable.listed he
    rw [haddressed.entryUrl]
    refine connect_of_parse haddressed hfile hq i (haddressed.parse_text hliteral hname)
      fun w hvw => ?_
    rw [Handler.connection, if_neg hne, hvw.alike.entry?, haddressable.entry?_name he]
  · rw [haddressed.url]
    refine connect_of_parse haddressed hfile hq i
      (haddressed.parse_text hliteral List.isChain_nil) fun w _ => ?_
    rw [Handler.connection, if_pos rfl]

lemma Still.exists_openJar {p : Process} {d : Disk} (hp : p.Still d) {a : Archive} (h : a.Writable)
    {path : String} {id : FileId} (hid : d.openFile path = .ok id) (hcontent : d.content id = a.bytes)
    {useCache : Bool} {q : Jar → Bool}
    (hq : (Directory.parse (Archive.directory 0 a.entries).toByteArray a.entries.length).toOption.any
      (fun directory => q ⟨path, "", .direct, fileView d id path, a.endRecord, directory, .empty,
        p.system.openings⟩) = true) :
    ∃ j, (p.system.openJar useCache path).1 = .ok j ∧ q j = true := by
  obtain ⟨j, hj, hq⟩ :=
    h.exists_freshJar hid hcontent (p := fun j => q (j.numbered p.system.openings)) hq
  exact ⟨_, by rw [(hp.openJar useCache path).2, hj]; rfl, hq⟩

def spacedArchive : Archive :=
  ⟨[⟨" /".toUTF8, .empty, .empty, 0⟩, ⟨" /!".toUTF8,
    (Archive.mk [⟨"é%".toUTF8, .empty, .empty, 0⟩] .empty false).bytes, .empty, 0⟩], .empty, false⟩

lemma writable_spacedArchive : spacedArchive.Writable :=
  Archive.writable_of_comment_empty rfl (by simp [spacedArchive]) (by decide +kernel)

def spacedBytes : ByteArray := spacedArchive.bytes

def spacedDisk : Disk :=
  ((Disk.empty []).writeFile "/a b.jar" spacedBytes 1).toOption.getD (.empty [])

lemma content_spacedDisk : spacedDisk.content ⟨0⟩ = spacedArchive.bytes := by
  have hwrite (bytes : ByteArray) :
      (((Disk.empty []).writeFile "/a b.jar" bytes 1).toOption.getD (.empty [])).content ⟨0⟩ = bytes :=
    rfl
  exact hwrite _

theorem connect_url_spacedDisk :
    ∃ (p q : Process) (j v : Jar), p.Still spacedDisk ∧ q.Still spacedDisk ∧
      Url.Expressible "/./a b.jar" ∧ (p.system.openJar false "/./a b.jar").1 = .ok j ∧
      Jar.Chain spacedDisk j v ∧ v.kind = .nestedJar ∧ v.entries.map Entry.name = ["é%"] ∧
      (∀ e ∈ v.entries, ∃ c,
        ((q.handlers 0).connect q.system (v.entryUrl spacedDisk.homeText e)).1 = .ok c ∧
          c.LeadsTo v (some e)) ∧
        ∃ c, ((q.handlers 0).connect q.system (v.url spacedDisk.homeText)).1 = .ok c ∧
          c.LeadsTo v none := by
  have hp : (start spacedDisk fun _ => true).Still spacedDisk := ⟨_, [], by simp, rfl⟩
  obtain ⟨j, hj, hs⟩ : ∃ j,
      ((start spacedDisk fun _ => true).system.openJar false "/./a b.jar").1 = .ok j ∧
      (j.directory.records.map DirectoryRecord.name = [" /", " /!"].map String.toUTF8 &&
        (j.entry? " ").any fun dir => dir.isDirectory &&
          (Jar.entry? (j.nestedDirectory dir) "!").any fun inner =>
            ((j.nestedDirectory dir).nested spacedDisk inner).toOption.any fun v =>
              v.directory.records.map DirectoryRecord.name = ["é%"].map String.toUTF8 &&
                v.kind = .nestedJar && v.entries.map Entry.name = ["é%"]) = true := by
    apply hp.exists_openJar writable_spacedArchive (by decide +kernel) content_spacedDisk
    decide +kernel
  simp only [Option.any_eq_true, Bool.and_eq_true, decide_eq_true_eq] at hs
  obtain ⟨houter, dir, hdir, hdirectory, inner, hinner, v, hsome, ⟨hnested, hkind⟩, hnames⟩ := hs
  have hv : (j.nestedDirectory dir).nested spacedDisk inner = .ok v := by
    cases hn : (j.nestedDirectory dir).nested spacedDisk inner with
    | error failure => simp [hn, Except.toOption] at hsome
    | ok w => simpa [hn, Except.toOption] using hsome
  have hwell : Url.WellNamed j.directory := ⟨_, houter, by decide +kernel, by decide +kernel⟩
  have hwell' : Url.WellNamed v.directory := ⟨_, hnested, by decide +kernel, by decide +kernel⟩
  have hchain : Jar.Chain spacedDisk j v :=
    ((Jar.Chain.here hwell).into (.inr ⟨_, hdir⟩) (Jar.nested_of_isDirectory hdirectory)
      hwell).into (.inr ⟨_, hinner⟩) hv hwell'
  have hq : ((start spacedDisk fun _ => false).run [.openJar true "/a b.jar",
      .connect 0 "jar:file:/a%20b.jar!/"]).Still spacedDisk := ⟨_, _, by decide, rfl⟩
  have hpath : Url.Expressible "/./a b.jar" := by decide +kernel
  exact ⟨_, _, j, v, hp, hq, hpath, hj, hchain, hkind, hnames, connect_url hp hq hpath hj hchain 0⟩

end Process

end JarReader

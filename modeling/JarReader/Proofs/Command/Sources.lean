import JarReader.Command.Paths
import JarReader.Proofs.Command.Forms
import JarReader.Proofs.System.Names

namespace JarReader

lemma Jar.source_of_ofView {d : Disk} {v : View} {root path : String} {kind : JarKind} {j : Jar}
    (h : ofView d v root path kind = .ok j) : j.archive.source = v.source := by
  obtain ⟨_, _, _, harchive, rfl⟩ := ofView_eq_ok_iff.mp h
  exact View.source_of_part (Zip.EndRecord.part_of_archive harchive)

lemma Jar.source_of_entryData {d : Disk} {j : Jar} {e : Entry} {v : View} (h : j.entryData d e = .ok v) :
    v.source = j.archive.source := by
  obtain ⟨_, _, _, _, hpart⟩ := entryData_eq_ok_iff.mp h
  exact View.source_of_part hpart

lemma Jar.source_of_nested {d : Disk} {j k : Jar} {e : Entry} (h : j.nested d e = .ok k) :
    k.archive.source = j.archive.source := by
  rcases nested_eq_ok_iff.mp h with ⟨_, rfl⟩ | ⟨_, _, _, hdata, hk⟩
  · rfl
  · exact (source_of_ofView hk).trans (source_of_entryData hdata)

lemma exists_source_of_freshJar {d : Disk} {path : String} {j : Jar} (h : freshJar d path = .ok j) :
    ∃ id, d.openFile path = .ok id ∧ j.archive.source = .file id path := by
  obtain ⟨id, hid, hopen⟩ := exists_openFile_of_freshJar h
  exact ⟨id, hid, Jar.source_of_ofView hopen⟩

lemma Handler.openJar_of_root {h : Handler} {s : System} {path : String} {j : Jar} (hroots : h.roots = [])
    (hr : (h.root s path).1 = .ok j) : (s.openJar h.useCache path).1 = .ok j := by
  simp only [root] at hr
  split at hr
  · cases hr
  · rw [hroots, List.lookup_nil] at hr
    simp only at hr
    generalize s.openJar h.useCache path = opened at hr ⊢
    obtain ⟨result, t⟩ := opened
    cases result with
    | error failure => cases hr
    | ok k => exact hr

namespace Command

variable {a : Arguments} {d : Disk} {j : Jar}

lemma exists_freshJar_of_openJar (h : (openJar a (.start d)).1 = .ok j) :
    ∃ root fresh s segments, rootPath? a = some root ∧ freshJar d root = .ok fresh ∧
      (Handler.descend s (fresh.numbered 0) segments).1 = .ok j := by
  rw [openJar] at h
  rw [rootPath?]
  split at h
  · rw [if_pos ‹_›]
    cases hparts : JarUrl.parse a.file with
    | error failure =>
      rw [openUrl, Handler.connect, hparts] at h
      cases h
    | ok parts =>
      rw [openUrl] at h
      generalize hopened : (Handler.new !a.noCache).connect (.start d) a.file = opened at h
      obtain ⟨result, _, _⟩ := opened
      cases result with
      | error failure => cases h
      | ok c =>
        cases h
        obtain ⟨jar, t, hroot, hinner⟩ :=
          Handler.exists_descend_of_connect hparts (congrArg Prod.fst hopened)
        have hopen := Handler.openJar_of_root rfl hroot
        rw [(System.openJar_start d _ _).1] at hopen
        cases hfresh : freshJar d parts.file with
        | error failure =>
          rw [hfresh] at hopen
          cases hopen
        | ok fresh =>
          rw [hfresh] at hopen
          cases hopen
          exact ⟨parts.file, fresh, t, parts.nested, rfl, hfresh, hinner⟩
  · rw [if_neg ‹_›]
    have hnamed : named d (splitPath a.file).1 (splitPath a.file).2 = some j := by
      rw [← toOption_openPath (a := a) (Prod.eta _).symm, h]
      rfl
    obtain ⟨fresh, hfresh, hinner⟩ := Option.bind_eq_some_iff.mp hnamed
    exact ⟨_, fresh, _, _, rfl, toOption_eq_some_iff.mp hfresh, toOption_eq_some_iff.mp hinner⟩

lemma exists_source_of_openJar (h : (openJar a (.start d)).1 = .ok j) :
    ∃ root id, rootPath? a = some root ∧ d.openFile root = .ok id ∧
      j.archive.source = .file id root := by
  obtain ⟨root, fresh, s, segments, hroot, hfresh, hinner⟩ := exists_freshJar_of_openJar h
  obtain ⟨id, hid, hsource⟩ := exists_source_of_freshJar hfresh
  have hshared :=
    Handler.eq_of_descend (·.archive.source) (fun _ _ _ _ _ => Jar.source_of_nested) hinner
  exact ⟨root, id, hroot, hid, hshared.trans hsource⟩

end Command

end JarReader

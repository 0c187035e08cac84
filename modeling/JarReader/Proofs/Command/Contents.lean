import JarReader.Proofs.Command.Overwriting
import JarReader.Proofs.Command.Reached
import Mathlib.Data.List.Find

/-! A run that extracts stored entries with clean names to a directory writes just their contents: where
nothing is overwritten that of the first with its output path, else that of the last. Two paths of one
file cannot hold two contents, so a file that is overwritten must have no second name. -/

namespace JarReader

def Disk.Holds (d : Disk) (path : String) (location : Location) (bytes : ByteArray) : Prop :=
  ∃ id, d.find path = .ok (location, .file id) ∧ d.content id = bytes

lemma Disk.Hosts.holds {d : Disk} {directory name : String} {base : Location} {bytes : ByteArray}
    (h : d.Hosts directory base) (hname : Path.Clean name) (hfits : Fits directory name)
    (hfile : d.fileAt? (base ++ Path.pieces name) = some bytes) :
    d.Holds (Path.join directory name) (base ++ Path.pieces name) bytes := by
  obtain ⟨id, hid, hcontent⟩ := fileAt?_eq_some_iff.mp hfile
  exact ⟨id, h.find_of_fits hname hfits hid, hcontent⟩

namespace Command

section Run

open Extraction

variable {words : List String} {a : Arguments} {d : Disk}

lemma exists_perform_of_exitCode (hwords : Request.ofWords words = .run a)
    (hexit : (run words d).exitCode = 0) :
    ∃ j, (openJar a (.start d)).1 = .ok j ∧ (perform a j ⟨d, .empty, ""⟩).2 = none ∧
      (run words d).disk = (perform a j ⟨d, .empty, ""⟩).1.disk := by
  rw [run, hwords] at hexit ⊢
  simp only [execute] at hexit ⊢
  generalize openJar a (.start d) = opened at hexit ⊢
  obtain ⟨result, s⟩ := opened
  cases result with
  | error report => cases hexit
  | ok j =>
    refine ⟨j, rfl, ?_⟩
    simp only at hexit ⊢
    generalize perform a j ⟨d, .empty, ""⟩ = done at hexit ⊢
    obtain ⟨p, report?⟩ := done
    cases report? with
    | none => exact ⟨rfl, rfl⟩
    | some report => cases hexit

lemma perform_extraction (hmode : (a.manifest || a.verbose || a.list || a.pipe) = false) (j : Jar)
    (p : Progress) :
    perform a j p = extractAll a j (1 < (selected a j).length) (selected a j)
      (warnUnmatched a (selected a j) p) := by
  rw [perform_eq_run (Bool.or_eq_false_iff.mp hmode).1, Extraction.run]

structure Extracted (a : Arguments) (j : Jar) (before after : Disk) : Prop where
  changed : ∀ location, after.fileAt? location ≠ before.fileAt? location →
    ∃ e ∈ selected a j, ∃ bytes, after.Holds (outputPath a e.name) location bytes
  there : ∀ e ∈ selected a j, after.pathExists (outputPath a e.name) = true
  /-- Without `-o` or with `-n` the files that were there stay, and others are those of the first entries. -/
  first : a.neverOverwrite = true ∨ a.overwrite = false →
    (∀ location bytes, before.fileAt? location = some bytes →
      after.fileAt? location = some bytes) ∧
    ∀ location bytes, before.fileAt? location = none → after.fileAt? location = some bytes →
      ∃ e, (selected a j).find? (fun x => outputPath a x.name = outputPath a e.name) = some e ∧
        j.entryContent before e = .ok bytes ∧ after.Holds (outputPath a e.name) location bytes
  /-- With `-o` and without `-n` all are those of the last entries. -/
  last : a.overwrite = true → a.neverOverwrite = false → ∀ e ∈ selected a j,
    ∃ x location bytes,
      (selected a j).reverse.find? (fun x => outputPath a x.name = outputPath a e.name) = some x ∧
        j.entryContent before x = .ok bytes ∧ after.Holds (outputPath a e.name) location bytes

lemma outputPath_eq_iff {directory : String} (hdirectory : a.directory? = some directory)
    (base : Location) {x e : Entry} (hx : Path.Clean x.name) (he : Path.Clean e.name) :
    outputPath a x.name = outputPath a e.name ↔ target a base x = target a base e := by
  have hx := clean_writtenName a hx
  have he := clean_writtenName a he
  rw [outputPath_eq hdirectory, outputPath_eq hdirectory, target, target, List.append_cancel_left_eq]
  constructor
  · intro h
    have hpieces := congrArg Path.pieces h
    rwa [Path.pieces_join hx.isAbsolute, Path.pieces_join he.isAbsolute,
      List.append_cancel_left_eq] at hpieces
  · intro h
    rw [hx.eq_of_pieces he h]

lemma Extracted.content_of_last {j : Jar} {before after : Disk} (h : Extracted a j before after)
    (hoverwrite : a.overwrite = true) (hnever : a.neverOverwrite = false) {path : String} {x : Entry}
    (hlast : (selected a j).reverse.find? (fun x => outputPath a x.name = path) = some x) :
    (after.openFile path).toOption.map after.content = (j.entryContent before x).toOption := by
  have hx : x ∈ selected a j := List.mem_reverse.mp (List.mem_of_find?_eq_some hlast)
  have hpath : outputPath a x.name = path := by simpa using List.find?_some hlast
  obtain ⟨last, location, bytes, hfound, hcontent, id, hfind, rfl⟩ := h.last hoverwrite hnever x hx
  rw [hpath] at hfound hfind
  obtain rfl : x = last := Option.some.inj (hlast.symm.trans hfound)
  rw [hcontent, Disk.openFile_iff_find.mpr ⟨location, hfind⟩]
  rfl

lemma Extraction.Extracts.extracted {directory : String} {base : Location} {j : Jar} {after : Disk}
    (h : Extracts a j base d (selected a j) d after) (hdirectory : a.directory? = some directory)
    (hosts : after.Hosts directory base)
    (hnames : ∀ e ∈ selected a j, Path.Clean e.name)
    (hfits : ∀ e ∈ selected a j, Disk.Fits directory (writtenName a e.name)) :
    Extracted a j d after := by
  have hholds {e : Entry} (he : e ∈ selected a j) {bytes : ByteArray}
      (hfile : after.fileAt? (target a base e) = some bytes) :
      after.Holds (outputPath a e.name) (target a base e) bytes := by
    rw [outputPath_eq hdirectory]
    exact hosts.holds (clean_writtenName a (hnames e he)) (hfits e he) hfile
  have hpath {es : List Entry} (hes : ∀ x ∈ es, x ∈ selected a j) {e : Entry} (he : e ∈ selected a j) :
      es.find? (fun x => outputPath a x.name = outputPath a e.name) =
        es.find? fun x => target a base x = target a base e := by
    apply List.find?_congr
    intro x hx
    exact decide_eq_decide.mpr (outputPath_eq_iff hdirectory base (hnames x (hes x hx)) (hnames e he))
  constructor
  case changed =>
    intro location hchanged
    obtain ⟨e, he, rfl⟩ : ∃ e ∈ selected a j, target a base e = location := by
      by_contra hnone
      exact hchanged (h.elsewhere fun e he hl => hnone ⟨e, he, hl⟩)
    obtain ⟨node, hnode⟩ := h.exists_node he
    cases hfile : after.fileAt? (target a base e) with
    | some bytes => exact ⟨e, he, bytes, hholds he hfile⟩
    | none =>
      cases hold : d.fileAt? (target a base e) with
      | none => exact absurd (hfile.trans hold.symm) hchanged
      | some bytes =>
        obtain ⟨id, hid, _⟩ := Disk.fileAt?_eq_some_iff.mp hold
        rw [Disk.fileAt?, h.kept hid] at hfile
        cases hfile
  case there =>
    intro e he
    obtain ⟨node, hnode⟩ := h.exists_node he
    rw [outputPath_eq hdirectory]
    apply Disk.pathExists_iff.mpr
    exact ⟨_, _, hosts.find_of_fits (clean_writtenName a (hnames e he)) (hfits e he) hnode⟩
  case first =>
    intro hmode
    have hkeep := skipReason?_ne_none hmode
    refine ⟨fun location bytes hfile => ?_, fun location bytes hnone hfile => ?_⟩
    · obtain ⟨id, hid, _⟩ := Disk.fileAt?_eq_some_iff.mp hfile
      exact (h.taken hkeep hid).trans hfile
    · obtain ⟨e, he, hcontent⟩ := h.first hkeep hnone hfile
      have hmem := List.mem_of_find?_eq_some he
      have hl : target a base e = location := by simpa using List.find?_some he
      subst hl
      exact ⟨e, (hpath (fun _ => id) hmem).trans he, hcontent, hholds hmem hfile⟩
  case last =>
    intro hoverwrite hnever e he
    have hover : ¬ skipReason? a ≠ none :=
      not_not.mpr (skipReason?_eq_none_iff.mpr ⟨hoverwrite, hnever⟩)
    obtain ⟨x, bytes, hx, hcontent, hfile⟩ := h.last hover ⟨e, he, rfl⟩
    exact ⟨x, _, bytes, (hpath (fun _ => List.mem_reverse.mp) he).trans hx, hcontent, hholds he hfile⟩

/-- A run that extracts stored entries with clean names to files below a directory without symbolic links,
does not write over its jar and succeeds. Where it overwrites, the files at the output paths have no
second name. -/
theorem run_extracted {directory : String} {base : Location}
    (hwords : Request.ofWords words = .run a)
    (hmode : (a.manifest || a.verbose || a.list || a.pipe) = false)
    (hdirectory : a.directory? = some directory) (hosts : d.Hosts directory base)
    (hentries : ∀ j e, (openJar a (.start d)).1 = .ok j → e ∈ selected a j →
      e.method = .stored ∧ Path.Clean e.name)
    (hjar : ∀ root id, rootPath? a = some root → d.openFile root = .ok id →
      ∀ path ∈ outputPaths a d, d.openFile path ≠ .ok id)
    (hone : a.overwrite = true → a.neverOverwrite = false → ∀ path ∈ outputPaths a d, ∀ id,
      d.openFile path = .ok id → d.OneName id)
    (hexit : (run words d).exitCode = 0) :
    ∃ j, (openJar a (.start d)).1 = .ok j ∧ Extracted a j d (run words d).disk := by
  obtain ⟨j, hj, hdone, hdisk⟩ := exists_perform_of_exitCode hwords hexit
  obtain ⟨root, jar, hroot, hopen, hsource⟩ := exists_source_of_openJar hj
  refine ⟨j, hj, ?_⟩
  rw [perform_extraction hmode] at hdone hdisk
  have hknown : jar.index < d.files.size := by
    obtain ⟨location, hfind⟩ := Disk.openFile_iff_find.mp hopen
    exact hosts.well.known location jar (Disk.way_of_find hfind).isOn
  have hstart : Reached d directory base jar (warnUnmatched a (selected a j) ⟨d, .empty, ""⟩).disk := by
    rw [disk_warnUnmatched]
    exact ⟨hosts, .refl d, Disk.Grown.refl d⟩
  have hpipe : a.pipe = false := (Bool.or_eq_false_iff.mp hmode).2
  have hpath {e : Entry} (he : e ∈ selected a j) : outputPath a e.name ∈ outputPaths a d :=
    mem_outputPaths.mpr ⟨hmode, j, hj, e, he, rfl⟩
  have heach : ∀ e ∈ selected a j, e.method = .stored ∧ Path.Clean e.name ∧
      d.openFile (outputPath a e.name) ≠ .ok jar := by
    intro e he
    obtain ⟨hstored, hname⟩ := hentries j e hj he
    exact ⟨hstored, hname, hjar root jar hroot hopen _ (hpath he)⟩
  have hsingle : skipReason? a = none → ∀ e ∈ selected a j, ∀ id,
      d.openFile (outputPath a e.name) = .ok id → d.OneName id := by
    intro hkeep e he
    obtain ⟨hoverwrite, hnever⟩ := skipReason?_eq_none_iff.mp hkeep
    exact hone hoverwrite hnever _ (hpath he)
  obtain ⟨hextracts, hosts', hfits⟩ :=
    extracts_extractAll hosts hknown _ hdirectory hpipe hsource hstart heach hsingle hdone
  rw [disk_warnUnmatched] at hextracts
  rw [hdisk]
  exact hextracts.extracted hdirectory hosts' (fun e he => (hentries j e hj he).2) hfits

def hostDisk? (first second : String) : Except SystemFault Disk :=
  let bytes := (Zip.Archive.mk [⟨first.toUTF8, "1".toUTF8, .empty, 0⟩,
    ⟨second.toUTF8, "2".toUTF8, .empty, 0⟩] .empty false).bytes
  (Disk.empty ["w"]).makeDirectory "out" >>= fun d => d.writeFile "out/x" "old".toUTF8 0 >>= fun d =>
    d.writeFile "out/z" "old".toUTF8 0 >>= fun d => d.writeFile "a.jar" bytes 0

lemma wellFormed_of_hostDisk? {first second : String} {d : Disk} (h : hostDisk? first second = .ok d) :
    d.WellFormed := by
  obtain ⟨d₁, hout, h⟩ := Disk.exists_of_bind h
  obtain ⟨d₂, hx, h⟩ := Disk.exists_of_bind h
  obtain ⟨d₃, hz, hjar⟩ := Disk.exists_of_bind h
  have hwell := ((Disk.wellFormed_empty _).makeDirectory hout).writeFile hx
  exact (hwell.writeFile hz).writeFile hjar

def hostDisk (first second : String) : Disk := (hostDisk? first second).toOption.getD (.empty [])

lemma wellFormed_hostDisk (first second : String) : (hostDisk first second).WellFormed := by
  rw [hostDisk]
  cases h : hostDisk? first second with
  | error fault => exact Disk.wellFormed_empty []
  | ok d => exact wellFormed_of_hostDisk? h

def crowdedDisk : Disk := hostDisk "p/x" "q/x"

lemma hosts_crowdedDisk : crowdedDisk.Hosts "out" ["w", "out"] where
  found := by decide +kernel
  free := Disk.linkFree_of_nodes (by decide +kernel) _
  well := wellFormed_hostDisk _ _

def junkingArguments : Arguments :=
  { targetArguments with overwrite := true, junkPaths := true }

theorem run_extracted_crowded :
    Request.ofWords ["-jo", "-d", "out", "a.jar"] = .run junkingArguments ∧
      crowdedDisk.Hosts "out" ["w", "out"] ∧
      outputPaths junkingArguments crowdedDisk = ["out/x", "out/x"] ∧
      (∀ j e, (openJar junkingArguments (.start crowdedDisk)).1 = .ok j →
        e ∈ selected junkingArguments j → e.method = .stored ∧ Path.Clean e.name) ∧
      (∀ root id, rootPath? junkingArguments = some root → crowdedDisk.openFile root = .ok id →
        ∀ path ∈ outputPaths junkingArguments crowdedDisk, crowdedDisk.openFile path ≠ .ok id) ∧
      (∀ path ∈ outputPaths junkingArguments crowdedDisk, ∀ id,
        crowdedDisk.openFile path = .ok id → crowdedDisk.OneName id) ∧
      (run ["-jo", "-d", "out", "a.jar"] crowdedDisk).exitCode = 0 ∧
      (run ["-jo", "-d", "out", "a.jar"] crowdedDisk).disk.fileAt? ["w", "out", "x"] =
        some "2".toUTF8 ∧
      ∃ j, (openJar junkingArguments (.start crowdedDisk)).1 = .ok j ∧
        Extracted junkingArguments j crowdedDisk
          (run ["-jo", "-d", "out", "a.jar"] crowdedDisk).disk := by
  have hwords : Request.ofWords ["-jo", "-d", "out", "a.jar"] = .run junkingArguments := by
    decide +kernel
  obtain ⟨hpaths, hall⟩ : outputPaths junkingArguments crowdedDisk = ["out/x", "out/x"] ∧
      (openJar junkingArguments (.start crowdedDisk)).1.toOption.all (fun j =>
        (selected junkingArguments j).all fun e => e.method = .stored ∧ Path.Clean e.name) = true := by
    decide +kernel
  obtain ⟨hexit, hfile⟩ : (run ["-jo", "-d", "out", "a.jar"] crowdedDisk).exitCode = 0 ∧
      (run ["-jo", "-d", "out", "a.jar"] crowdedDisk).disk.fileAt? ["w", "out", "x"] =
        some "2".toUTF8 := by
    decide +kernel
  have hentries : ∀ j e, (openJar junkingArguments (.start crowdedDisk)).1 = .ok j →
      e ∈ selected junkingArguments j → e.method = .stored ∧ Path.Clean e.name := by
    intro j e hj he
    rw [hj] at hall
    simpa using List.all_eq_true.mp hall e he
  have hjar : ∀ root id, rootPath? junkingArguments = some root → crowdedDisk.openFile root = .ok id →
      ∀ path ∈ outputPaths junkingArguments crowdedDisk, crowdedDisk.openFile path ≠ .ok id := by
    have hpath : rootPath? junkingArguments = some "a.jar" := by decide +kernel
    have hopen : crowdedDisk.openFile "a.jar" = .ok ⟨2⟩ := by decide +kernel
    have hout : crowdedDisk.openFile "out/x" = .ok ⟨0⟩ := by decide +kernel
    intro root id hroot hid path hmem
    rw [hpath] at hroot
    cases hroot
    rw [hopen] at hid
    cases hid
    rw [hpaths] at hmem
    have hx : path = "out/x" := by simpa using hmem
    rw [hx, hout]
    intro he
    cases he
  have hone (id : FileId) : crowdedDisk.OneName id := Disk.oneName_of_nodes (by decide +kernel) id
  exact ⟨hwords, hosts_crowdedDisk, hpaths, hentries, hjar, fun _ _ id _ => hone id, hexit, hfile,
    run_extracted hwords rfl rfl hosts_crowdedDisk hentries hjar (fun _ _ _ _ id _ => hone id) hexit⟩

def overwritingArguments : Arguments := { targetArguments with overwrite := true }

def apartDisk : Disk := hostDisk "x" "y"

lemma hosts_apartDisk : apartDisk.Hosts "out" ["w", "out"] where
  found := by decide +kernel
  free := Disk.linkFree_of_nodes (by decide +kernel) _
  well := wellFormed_hostDisk _ _

/-- The file `out/x` has the second name `out/y`, and the jar has an entry for each. -/
def linkedDisk : Disk := apartDisk.setNode (["w", "out"] ++ ["y"]) (.file ⟨0⟩)

lemma hosts_linkedDisk : linkedDisk.Hosts "out" ["w", "out"] where
  found := by decide +kernel
  free := Disk.linkFree_of_nodes (by decide +kernel) _
  well := by
    refine hosts_apartDisk.well.setNode (by decide +kernel) (by decide +kernel) fun id he => ?_
    cases he
    decide +kernel

def pipingArguments : Arguments := { overwritingArguments with pipe := true }

/-- A run from `out` as `run_extracted` has it, but with other contents in the end. -/
def Departs (words : List String) (a : Arguments) (d : Disk) : Prop :=
  Request.ofWords words = .run a ∧ a.directory? = some "out" ∧ d.Hosts "out" ["w", "out"] ∧
    (run words d).exitCode = 0 ∧
    ∃ j, (openJar a (.start d)).1 = .ok j ∧
      (∀ e ∈ selected a j, e.method = .stored ∧ Path.Clean e.name ∧
        d.openFile (outputPath a e.name) ≠ d.openFile a.file) ∧
      ¬ Extracted a j d (run words d).disk

lemma departs_of_content {words : List String} {a : Arguments} {d : Disk} (path : String)
    (content : ByteArray) (hwords : Request.ofWords words = .run a)
    (hdirectory : a.directory? = some "out") (hosts : d.Hosts "out" ["w", "out"])
    (hmode : a.overwrite = true ∧ a.neverOverwrite = false)
    (hjar : (openJar a (.start d)).1.toOption.any (fun j =>
      (selected a j).all (fun e => e.method = .stored ∧ Path.Clean e.name ∧
        d.openFile (outputPath a e.name) ≠ d.openFile a.file) &&
      ((selected a j).reverse.find? fun x => outputPath a x.name = path).any
        fun x => (j.entryContent d x).toOption.map ByteArray.data = some content.data) = true)
    (hrun : (run words d).exitCode = 0 ∧
      ((run words d).disk.openFile path).toOption.map (run words d).disk.content ≠ some content) :
    Departs words a d := by
  obtain ⟨j, hj, hselected⟩ := Jar.exists_eq_ok_of_any hjar
  rw [Bool.and_eq_true, Option.any_eq_true] at hselected
  obtain ⟨hall, x, hlast, hcontent⟩ := hselected
  refine ⟨hwords, hdirectory, hosts, hrun.1, j, hj, by simpa using hall, fun hextracted => ?_⟩
  apply hrun.2
  rw [hextracted.content_of_last hmode.1 hmode.2 hlast]
  exact Option.map_injective (fun _ _ => ByteArray.ext) (of_decide_eq_true hcontent)

/-- Of two names of a file that is overwritten, one gets the content of the other; and with `-p` nothing
goes to the output paths. -/
theorem not_extracted_secondName :
    Departs ["-o", "-d", "out", "a.jar"] overwritingArguments linkedDisk ∧
      Departs ["-po", "-d", "out", "a.jar"] pipingArguments apartDisk := by
  constructor
  · apply departs_of_content "out/x" "1".toUTF8
    case hosts => exact hosts_linkedDisk
    all_goals decide +kernel
  · apply departs_of_content "out/x" "1".toUTF8
    case hosts => exact hosts_apartDisk
    all_goals decide +kernel

end Run

end Command

end JarReader

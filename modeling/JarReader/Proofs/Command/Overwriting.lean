import JarReader.Proofs.Command.Extraction
import JarReader.Proofs.Disk.Leads
import JarReader.Zip.Writing

/-! A run that is to overwrite nothing leaves every file as it is, as long as no output path climbs out of a
directory that is still to be made. -/

namespace JarReader

namespace Disk

variable {d d' : Disk}

def Extended (d d' : Disk) : Prop := Grown (fun _ => True) (fun id => d.files.size ≤ id.index) d d'

lemma Extended.fileAt? (h : d.Extended d') (hwell : d.WellFormed) {location : Location} {bytes : ByteArray}
    (hfile : d.fileAt? location = some bytes) : d'.fileAt? location = some bytes := by
  obtain ⟨id, hid, hcontent⟩ := fileAt?_eq_some_iff.mp hfile
  have hdata := (h.files id).resolve_right (Nat.not_le_of_lt (hwell.known location id hid))
  exact fileAt?_eq_some_iff.mpr ⟨id, h.kept _ _ hid, (content_eq_of_file? hdata).trans hcontent⟩

end Disk

namespace Command

section Write

variable {d d₁ d₂ : Disk} {path : String} (hfree : d.LinkFree []) (hback : d.Backed path)
  (hextended : d.Extended d₁) (hwell : d₁.WellFormed)
include hfree hback hextended hwell

lemma extended_writes (hmissing : d₁.pathExists path = false) (hwrites : Writes path d₁ d₂) :
    d.Extended d₂ ∧ d₂.WellFormed := by
  have hdirectories {d₂ : Disk} (h : Disk.Grown (fun _ => True) (fun _ => False) d₁ d₂) :
      d.Extended d₂ :=
    hextended.trans (h.mono fun _ => False.elim)
  cases hwrites with
  | directories h => exact ⟨hdirectories (Disk.grown_of_makes h), hwell.makes h⟩
  | file bytes h hcreate =>
    have hmade := Disk.grown_of_makes h
    obtain ⟨hcreated, hnew⟩ :
        Disk.Grown (fun _ => True) (fun id => d.files.size ≤ id.index) _ _ ∧ d.files.size ≤ _ := by
      refine Disk.Grown.create hcreate (fun location id hlocate => ?_)
        fun _ _ _ => ⟨trivial, (hdirectories hmade).size⟩
      -- a file that is found now was found when it was asked whether there is one
      have hexists := Disk.pathExists_of_made hwell hmade (hextended.linkFree hfree)
        (hback.grown hfree hextended) hlocate
      cases hmissing.symm.trans hexists
    exact ⟨((hdirectories hmade).trans hcreated).trans (Disk.Grown.modify hnew _),
      ((hwell.makes h).create hcreate).modify _ _⟩

end Write

lemma skipReason?_eq_none_iff {a : Arguments} :
    Extraction.skipReason? a = none ↔ a.overwrite = true ∧ a.neverOverwrite = false := by
  rw [Extraction.skipReason?]
  cases a.neverOverwrite <;> cases a.overwrite <;> simp

lemma skipReason?_ne_none {a : Arguments} (h : a.neverOverwrite = true ∨ a.overwrite = false) :
    Extraction.skipReason? a ≠ none := by
  intro hnone
  obtain ⟨hoverwrite, hnever⟩ := skipReason?_eq_none_iff.mp hnone
  rcases h with h | h
  · cases h.symm.trans hnever
  · cases h.symm.trans hoverwrite

/-- A run without `-o` or with `-n` keeps the bytes of each file if there are no links and all that an output
path climbs out of is there when the run starts. -/
theorem run_keeps_files {words : List String} {a : Arguments} {d : Disk}
    (hwords : Request.ofWords words = .run a) (hkeep : a.neverOverwrite = true ∨ a.overwrite = false)
    (hwell : d.WellFormed) (hfree : d.LinkFree []) (hback : ∀ path ∈ outputPaths a d, d.Backed path) :
    ∀ location bytes, d.fileAt? location = some bytes →
      (run words d).disk.fileAt? location = some bytes := by
  have hreach := puts_run (d := d) hwords
  generalize (run words d).disk = last at hreach
  have hlast : d.Extended last ∧ last.WellFormed := by
    induction hreach with
    | refl => exact ⟨Disk.Grown.refl d, hwell⟩
    | @tail d₁ _ _ hputs ih =>
      obtain ⟨path, hpath, hskip, hwrites⟩ := hputs
      have hmissing : d₁.pathExists path = false :=
        Bool.eq_false_iff.mpr fun hexists => skipReason?_ne_none hkeep (hskip hexists)
      exact extended_writes hfree (hback path hpath) ih.1 ih.2 hmissing hwrites
  exact fun _ _ hfile => hlast.1.fileAt? hwell hfile

def keptDisk? (name : String) : Except SystemFault Disk :=
  let bytes := (Zip.Archive.mk [⟨name.toUTF8, "new".toUTF8, .empty, 0⟩] .empty false).bytes
  (Disk.empty ["w"]).makeDirectory "sub" >>= fun d => d.writeFile "kept" "old".toUTF8 0 >>= fun d =>
    d.writeFile "a.jar" bytes 0

def keptDisk (name : String) : Disk := (keptDisk? name).toOption.getD (.empty [])

lemma wellFormed_keptDisk (name : String) : (keptDisk name).WellFormed := by
  rw [keptDisk]
  cases h : keptDisk? name with
  | error fault => exact Disk.wellFormed_empty []
  | ok d =>
    obtain ⟨d₁, hsub, h⟩ := Disk.exists_of_bind h
    obtain ⟨d₂, hkept, hjar⟩ := Disk.exists_of_bind h
    exact (((Disk.wellFormed_empty _).makeDirectory hsub).writeFile hkept).writeFile hjar

def keepingArguments : Arguments :=
  ⟨"a.jar", [], false, false, false, false, none, [], true, false, false, 0, false⟩

lemma backed_keptDisk : (keptDisk "sub/../kept").Backed "sub/../kept" := by
  intro front hfront
  have hsteps : Disk.steps "sub/../kept" = ["sub", "..", "kept"] := by decide +kernel
  rw [hsteps] at hfront
  have hsub : front = ["sub"] := by
    rcases front with _ | ⟨x, _ | ⟨y, _ | ⟨z, rest⟩⟩⟩ <;> simp_all [List.cons_prefix_cons]
  rw [hsub]
  exact ⟨["w", "sub"], by decide +kernel⟩

theorem run_keeps_files_sub :
    Request.ofWords ["-n", "a.jar"] = .run keepingArguments ∧
      (keptDisk "sub/../kept").WellFormed ∧ (keptDisk "sub/../kept").LinkFree [] ∧
      outputPaths keepingArguments (keptDisk "sub/../kept") = ["sub/../kept"] ∧
      (keptDisk "sub/../kept").Backed "sub/../kept" ∧
      ∀ location bytes, (keptDisk "sub/../kept").fileAt? location = some bytes →
        (run ["-n", "a.jar"] (keptDisk "sub/../kept")).disk.fileAt? location = some bytes := by
  have hwords : Request.ofWords ["-n", "a.jar"] = .run keepingArguments := by decide +kernel
  have hfree := Disk.linkFree_of_nodes (d := keptDisk "sub/../kept") (by decide +kernel) []
  have hpaths : outputPaths keepingArguments (keptDisk "sub/../kept") = ["sub/../kept"] := by
    decide +kernel
  have hback := backed_keptDisk
  refine ⟨hwords, wellFormed_keptDisk _, hfree, hpaths, hback, ?_⟩
  refine run_keeps_files hwords (.inl rfl) (wellFormed_keptDisk _) hfree fun path hpath => ?_
  rw [hpaths, List.mem_singleton] at hpath
  rw [hpath]
  exact hback

theorem not_kept_climbing :
    Request.ofWords ["-n", "a.jar"] = .run keepingArguments ∧
      (keptDisk "new/../kept").WellFormed ∧ (keptDisk "new/../kept").LinkFree [] ∧
      ¬ ∀ location bytes, (keptDisk "new/../kept").fileAt? location = some bytes →
        (run ["-n", "a.jar"] (keptDisk "new/../kept")).disk.fileAt? location = some bytes := by
  refine ⟨by decide +kernel, wellFormed_keptDisk _, Disk.linkFree_of_nodes (by decide +kernel) _, ?_⟩
  intro hkept
  have hold : (keptDisk "new/../kept").fileAt? ["w", "kept"] = some "old".toUTF8 := by decide +kernel
  have hnew : (run ["-n", "a.jar"] (keptDisk "new/../kept")).disk.fileAt? ["w", "kept"] =
      some "new".toUTF8 := by
    decide +kernel
  have hsame : "old".toUTF8 = "new".toUTF8 :=
    Option.some.inj ((hkept _ _ hold).symm.trans hnew)
  exact absurd hsame (by decide +kernel)

end Command

end JarReader

import JarReader.Proofs.Disk.Join
import JarReader.Proofs.Url.Text

namespace JarReader

namespace Url

variable (home : String) {path : String} (habsolute : Path.isAbsolute path = true)
  (hliteral : Literal (Path.absolute home path))
include habsolute hliteral

lemma same_absolute : Path.same (Path.absolute home path) path = true := by
  rw [Path.same, Path.components_absolute home habsolute hliteral.absolute, beq_self_eq_true]

lemma ofFile_absolute : ofFile home (Path.absolute home path) = ofFile home path := by
  rw [ofFile, ofFile, Path.absolute_absolute home habsolute hliteral.absolute hliteral.slashes]

end Url

namespace JarUrl

/-- What the text of a URL is read as is the URL that was written, and is written as the same text. The
file is an absolute path, and no part holds a separator. -/
theorem parse_text_same (home : String) {u : JarUrl} (hfile : Path.isAbsolute u.file = true)
    (hbackslash : '\\' ∉ u.file.toList) (hnested : "" ∉ u.nested)
    (hparts : ∀ part ∈ u.file :: (u.nested ++ [u.entry]),
      ¬ Url.separator.toList <:+: part.toList) :
    ∃ v, parse (u.text home) = .ok v ∧ v.same u = true ∧ v.text home = u.text home := by
  obtain ⟨hseparator, hparts⟩ := List.forall_mem_cons.mp hparts
  have hliteral := Url.literal_absolute home hfile hbackslash hseparator
  refine ⟨⟨Path.absolute home u.file, u.nested, u.entry⟩, ?_, ?_, ?_⟩
  · exact parse_text hliteral hnested fun part hpart =>
      Text.apart_iff_not_isInfix.mpr (hparts part hpart)
  · simp [same, Url.same_absolute home hfile hliteral]
  · simp only [text, Url.ofFile_absolute home hfile hliteral]

def awkward : JarUrl := ⟨"//srv/./é %/../x!", ["a!", "/%2F!"], "/!%41"⟩

theorem parse_text_same_awkward :
    awkward.text "/home" = "jar:file://srv/%C3%A9%20%25/../x!!/a!!//%252F!!//!%2541" ∧
      Path.isAbsolute awkward.file = true ∧ '\\' ∉ awkward.file.toList ∧ "" ∉ awkward.nested ∧
      (∀ part ∈ awkward.file :: (awkward.nested ++ [awkward.entry]),
        ¬ Url.separator.toList <:+: part.toList) ∧
      ∃ v, parse (awkward.text "/home") = .ok v ∧ v.same awkward = true ∧
        v.text "/home" = awkward.text "/home" := by
  have hfile : Path.isAbsolute awkward.file = true := by decide +kernel
  have hbackslash : '\\' ∉ awkward.file.toList := by decide +kernel
  have hparts : ∀ part ∈ awkward.file :: (awkward.nested ++ [awkward.entry]),
      ¬ Url.separator.toList <:+: part.toList := by
    decide +kernel
  exact ⟨by decide +kernel, hfile, hbackslash, by decide, hparts,
    parse_text_same "/home" hfile hbackslash (by decide) hparts⟩

end JarUrl

end JarReader

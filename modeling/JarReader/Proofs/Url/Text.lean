import JarReader.Proofs.Disk.Path
import JarReader.Proofs.Text.Percent
import JarReader.Url.Basic
import Mathlib.Data.List.Infix

namespace JarReader

namespace Url

structure Literal (path : String) : Prop where
  absolute : Path.isAbsolute path = true
  slashes : Text.Apart '/' '/' path.toList.tail
  noBackslash : '\\' ∉ path.toList
  noSeparator : Text.Apart '!' '/' path.toList

/-- An absolute path that a URL can express: one slash in front, no backslash and no separator. -/
structure Expressible (path : String) : Prop where
  absolute : Path.isAbsolute path = true
  single : Path.beginsWith "//" path = false
  noBackslash : '\\' ∉ path.toList
  noSeparator : ¬ separator.toList <:+: path.toList

instance (path : String) : Decidable (Expressible path) :=
  decidable_of_iff (Path.isAbsolute path = true ∧ Path.beginsWith "//" path = false ∧
      '\\' ∉ path.toList ∧ ¬ separator.toList <:+: path.toList)
    ⟨fun ⟨h, hd, hb, hs⟩ => ⟨h, hd, hb, hs⟩, fun h =>
      ⟨h.absolute, h.single, h.noBackslash, h.noSeparator⟩⟩

lemma literal_lead (path : String) : Literal (Path.lead path) := by
  rcases Path.lead_eq path with h | h <;> rw [h] <;>
    exact ⟨rfl, by simp [Text.Apart], by decide, .of_not_mem (.inl (by decide))⟩

lemma literal_absolute (home : String) {path : String} (habsolute : Path.isAbsolute path = true)
    (hbackslash : '\\' ∉ path.toList) (hseparator : ¬ separator.toList <:+: path.toList) :
    Literal (Path.absolute home path) := by
  by_cases hkept : Path.kept path = []
  · rw [Path.absolute_of_kept home habsolute hkept]
    exact literal_lead path
  have hlist := Path.toList_absolute_lead home habsolute hkept
  have hslashes := Path.apart_slashed_kept hkept
  obtain ⟨names, hnames, hsub⟩ := Path.exists_slashed_kept habsolute
  have hapart : Text.Apart '!' '/' path.toList := Text.apart_iff_not_isInfix.mpr hseparator
  rw [hnames] at hbackslash hapart
  have hnone : '\\' ∉ Path.slashed ((Path.kept path).map String.toList) := fun hmem =>
    hbackslash ((hsub.flatMap _).subset hmem)
  have hseparated := Path.apart_slashed_of_sublist hsub hapart
  obtain ⟨name, others, hk⟩ := List.exists_cons_of_ne_nil hkept
  rcases Path.lead_eq path with hlead | hlead <;> rw [hlead] at hlist
  · have hlist : (Path.absolute home path).toList =
        Path.slashed ((Path.kept path).map String.toList) := hlist
    refine ⟨?_, ?_, hlist ▸ hnone, hlist ▸ hseparated⟩
    · rw [Path.isAbsolute, hlist, hk]
      simp
    · rw [hlist]
      exact hslashes.tail
  · have hlist : (Path.absolute home path).toList =
        '/' :: Path.slashed ((Path.kept path).map String.toList) := hlist
    refine ⟨?_, ?_, ?_, ?_⟩
    · rw [Path.isAbsolute, hlist]
      rfl
    · rwa [hlist]
    · rw [hlist]
      simpa using hnone
    · rw [hlist]
      exact List.isChain_cons.mpr ⟨fun c _ he => absurd he (by decide), hseparated⟩

lemma shorten_eq {cs : List Char} (h : Text.Apart '/' '/' cs) : shorten cs = cs := by
  induction cs with
  | nil => rfl
  | cons c cs ih =>
    have hstart : "file:////".toList.isPrefixOf (c :: cs) = false := by
      rw [Bool.eq_false_iff, ne_eq, List.isPrefixOf_iff_prefix]
      rintro ⟨rest, hrest⟩
      exact Text.apart_iff_not_isInfix.mp h ⟨"file:".toList, "//".toList ++ rest, hrest⟩
    rw [shorten, hstart, if_neg Bool.false_ne_true, ih h.tail]

lemma shorten_file {cs : List Char} (h : Text.Apart '/' '/' cs) :
    shorten ("file:".toList ++ '/' :: cs) = "file:".toList ++ '/' :: cs := by
  have hstart : "///".toList.isPrefixOf cs = false := by
    rw [Bool.eq_false_iff, ne_eq, List.isPrefixOf_iff_prefix]
    rintro ⟨rest, hrest⟩
    exact Text.apart_iff_not_isInfix.mp h ⟨[], '/' :: rest, hrest⟩
  have hstart : ['/', '/', '/'].isPrefixOf cs = false := hstart
  simp [shorten, List.isPrefixOf, hstart, shorten_eq h]

section Literal

variable {path : String} (h : Literal path)
include h

lemma Literal.exists_cons : ∃ rest, path.toList = '/' :: rest ∧ Text.Apart '/' '/' rest := by
  obtain ⟨rest, hrest⟩ : ∃ rest, path.toList = '/' :: rest := by
    simpa [Path.isAbsolute, List.head?_eq_some_iff] using h.absolute
  have hslashes := h.slashes
  rw [hrest] at hslashes
  exact ⟨rest, hrest, hslashes⟩

lemma Literal.plainFile : JarUrl.plainFile path = path := by
  obtain ⟨rest, hrest, hslashes⟩ := h.exists_cons
  have hstrip : Text.stripChars? "///".toList path.toList = none := by
    rw [Option.eq_none_iff_forall_ne_some]
    intro text ht
    have htext := Text.stripChars?_eq_some ht
    rw [hrest] at htext
    obtain rfl : rest = '/' :: '/' :: text := List.tail_eq_of_cons_eq htext
    exact hslashes.rel rfl rfl
  rw [JarUrl.plainFile, Text.strip?, hstrip]
  rfl

lemma Literal.shorten : Url.shorten ("file:" ++ Text.Percent.encode path).toList =
    ("file:" ++ Text.Percent.encode path).toList := by
  obtain ⟨rest, hrest, hslashes⟩ := h.exists_cons
  have hslash : Text.Percent.escape '/' = ['/'] := rfl
  rw [String.toList_append, Text.Percent.toList_encode, hrest, List.flatMap_cons, hslash]
  exact shorten_file (Text.Percent.apart_encode (.inr rfl) (.inr rfl) hslashes)

end Literal

lemma ofFile_eq {home path : String} (h : Literal (Path.absolute home path)) :
    ofFile home path = "file:" ++ Text.Percent.encode (Path.absolute home path) := by
  have hmap : (Path.absolute home path).map (fun c => if c = '\\' then '/' else c) =
      Path.absolute home path := by
    rw [← String.toList_inj, String.toList_map]
    refine (List.map_congr_left fun c hc => ?_).trans (List.map_id _)
    exact if_neg (ne_of_mem_of_not_mem hc h.noBackslash)
  simp only [ofFile, hmap, h.absolute, if_true, h.shorten, String.ofList_toList]

end Url

namespace JarUrl

open Text

lemma intercalate_eq (s first : String) (others : List String) :
    s.intercalate (first :: others) = first ++ String.join (others.map (s ++ ·)) := by
  induction others generalizing first with
  | nil => simp
  | cons next others ih =>
    rw [String.intercalate_cons_cons, ih, ← String.toList_inj]
    simp

lemma encode_separator : Percent.encode Url.separator = Url.separator := by decide +kernel

lemma apart_toList_encode {text : String} (h : Apart '!' '/' text.toList) :
    Apart '!' '/' (Percent.encode text).toList := by
  rw [Percent.toList_encode]
  exact Percent.apart_encode (.inl rfl) (.inr rfl) h

lemma parse_intercalate {file entry : String} {nested : List String} (hfile : file ≠ "")
    (hseparator : ∀ part ∈ file :: (nested ++ [entry]), Apart '!' '/' part.toList)
    (hnested : "" ∉ nested) :
    parse ("jar:" ++ ("file:" ++
        Url.separator.intercalate ((file :: (nested ++ [entry])).map Percent.encode))) =
      .ok ⟨plainFile file, nested, entry⟩ := by
  have hcut : cut Url.separator
      (Url.separator.intercalate ((file :: (nested ++ [entry])).map Percent.encode)) =
        (file :: (nested ++ [entry])).map Percent.encode := by
    refine cut_intercalate (a := '!') (b := '/') rfl (by decide) ?_ fun other hother => ?_
    · exact apart_toList_encode (hseparator file List.mem_cons_self)
    · obtain ⟨part, hpart, rfl⟩ := List.mem_map.mp hother
      exact apart_toList_encode (hseparator part (List.mem_cons_of_mem file hpart))
  have hsegments : ofSegments? (file :: (nested ++ [entry])) = some ⟨plainFile file, nested, entry⟩ := by
    obtain ⟨inner, more, hinner⟩ := List.exists_cons_of_ne_nil
      (show nested ++ [entry] ≠ [] by simp)
    have hlast : (inner :: more).getLastD "" = entry := by
      rw [← hinner]
      simp
    have hdrop : (inner :: more).dropLast = nested := by
      rw [← hinner, List.dropLast_concat]
    simp only [hinner, ofSegments?, hlast, hdrop]
    rw [if_neg]
    simp [hfile, hnested]
  simp only [parse, strip?_append, Option.bind_eq_bind, Option.bind_some, hcut,
    Percent.map_decode_encode, hsegments]

lemma text_eq {home : String} {u : JarUrl} (h : Url.Literal (Path.absolute home u.file)) :
    u.text home = "jar:" ++ ("file:" ++ Url.separator.intercalate
      ((Path.absolute home u.file :: (u.nested ++ [u.entry])).map Percent.encode)) := by
  rw [text, Url.ofFile_eq h, List.map_cons, intercalate_eq, ← String.toList_inj]
  simp [Function.comp_def]

lemma parse_text {home : String} {u : JarUrl} (h : Url.Literal (Path.absolute home u.file))
    (hnested : "" ∉ u.nested) (hparts : ∀ part ∈ u.nested ++ [u.entry], Apart '!' '/' part.toList) :
    parse (u.text home) = .ok ⟨Path.absolute home u.file, u.nested, u.entry⟩ := by
  have hfile : Path.absolute home u.file ≠ "" := by
    intro he
    have habsolute := h.absolute
    rw [he] at habsolute
    cases habsolute
  rw [text_eq h, parse_intercalate hfile (List.forall_mem_cons.mpr ⟨h.noSeparator, hparts⟩) hnested,
    h.plainFile]

end JarUrl

end JarReader

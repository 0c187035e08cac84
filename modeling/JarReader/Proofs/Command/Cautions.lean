import JarReader.Proofs.Command.Extraction
import JarReader.Proofs.Command.Glob
import JarReader.Proofs.Jar.Opening
import JarReader.Zip.Writing

/-! Of which given names a run warns that they match nothing: of those that select none of the entries, but not
of a pattern that is, as it stands, the last component of a selected name. -/

namespace JarReader.Command

namespace Extraction

def caution (file : String) : String := s!"caution: filename not matched:  {file}\n"

def leftOut (a : Arguments) (e : Entry) : String :=
  "Skipping: " ++ e.name ++ " (" ++ (skipReason? a).getD "" ++ ")\n"

/-- Warnings of `files`, then what is said of entries that are left out, then the failure in which the run
over `d` ends, if it does. -/
def Says (a : Arguments) (j : Jar) (d : Disk) (files : List String) (errors : String) : Prop :=
  ∃ entries : List Entry, entries.Sublist (selected a j) ∧
    errors = String.join (files.map caution) ++ String.join (entries.map (leftOut a)) ++
      ((perform a j ⟨d, .empty, ""⟩).2.map Report.text).getD ""

def picksNone (a : Arguments) (j : Jar) (file : String) : Bool :=
  (selected a j).all fun e => !picks file e.name

def isLastComponent (a : Arguments) (j : Jar) (file : String) : Bool :=
  Glob.isPattern file && (selected a j).any fun e => baseName e.name = file

lemma not_says_empty {a : Arguments} {j : Jar} {d : Disk} {files : List String} (h : files ≠ []) :
    ¬ Says a j d files "" := by
  obtain ⟨file, files, rfl⟩ := List.exists_cons_of_ne_nil h
  rintro ⟨entries, _, he⟩
  have hcaution : (caution file).toList ≠ [] := by
    unfold caution
    rw [String.toList_append]
    exact List.append_ne_nil_of_right_ne_nil _ (by decide)
  have hempty := congrArg String.toList he
  simp only [List.map_cons, String.join_cons, String.toList_append, String.toList_empty,
    List.nil_eq, List.append_eq_nil_iff] at hempty
  exact hcaution hempty.1.1.1

section Matches

variable {a : Arguments} {j : Jar}

lemma matches_eq_picks (file name : String) :
    (Glob.matchesText file name || name = file || baseName name = file) =
      (picks file name || (Glob.isPattern file && baseName name = file)) := by
  cases hpattern : Glob.isPattern file with
  | false =>
    have hliteral : Glob.matchesText file name = decide (name = file) := by
      rw [Bool.eq_iff_iff, Glob.matchesText_iff_eq hpattern, decide_eq_true_eq]
    simp [picks, hpattern, hliteral]
  | true =>
    -- a whole name that is the pattern matches it anyway
    by_cases hname : name = file
    · simp [picks, hpattern, hname, Glob.matchesText_self]
    · simp [picks, hpattern, hname]

lemma not_isMatched (file : String) :
    (!isMatched (selected a j) file) = (picksNone a j file && !isLastComponent a j file) := by
  have hsplit (entries : List Entry) :
      isMatched entries file = ((entries.any fun e => picks file e.name) ||
        (Glob.isPattern file && entries.any fun e => baseName e.name = file)) := by
    simp only [isMatched, matches_eq_picks]
    induction entries with
    | nil => simp
    | cons e entries ih =>
      simp only [List.any_cons, ih]
      cases Glob.isPattern file <;> simp [Bool.or_assoc, Bool.or_left_comm]
  rw [hsplit, Bool.not_or, picksNone, List.not_any_eq_all_not, isLastComponent]

end Matches

section Errors

variable {a : Arguments}

lemma warnUnmatched_eq (hquiet : a.isVeryQuiet = false) (entries : List Entry) (p : Progress) :
    warnUnmatched a entries p =
      p.warn (String.join ((a.files.filter fun file => !isMatched entries file).map caution)) := by
  have hfold (files : List String) (p : Progress) :
      files.foldl (fun p file => p.warn (caution file)) p = p.warn (String.join (files.map caution)) := by
    induction files generalizing p with
    | nil => simp [Progress.warn]
    | cons file files ih =>
      rw [List.foldl_cons, ih]
      simp only [Progress.warn, List.map_cons, String.join_cons, String.append_assoc]
  rw [warnUnmatched, hquiet, if_neg Bool.false_ne_true]
  exact hfold _ p

lemma errors_writeOut (path : String) (reader : ContentReader) (p : Progress) :
    (writeOut path reader p).1.errors = p.errors := by
  rw [writeOut_eq]
  generalize p.disk.makeFirst (Path.above path) = made
  obtain ⟨result, d⟩ := made
  cases result with
  | error fault => rfl
  | ok _ =>
    simp only
    cases d.create path with
    | error fault => rfl
    | ok created => rfl

lemma errors_pipe (showName : Bool) (e : Entry) (reader : ContentReader) (p : Progress) :
    (pipe a showName e reader p).1.errors = p.errors := by
  rw [pipe]
  simp only
  split <;> rfl

lemma errors_extractEntry (j : Jar) (showName : Bool) (e : Entry) (p : Progress) :
    (extractEntry a j showName e p).1.errors = p.errors ∨
      (extractEntry a j showName e p).1.errors = p.errors ++ leftOut a e := by
  rw [extractEntry]
  cases j.openEntry p.disk e with
  | error failure => exact .inl rfl
  | ok reader =>
    simp only
    split
    · exact .inl (errors_pipe showName e reader p)
    split
    · rename_i reason hreason
      split
      · exact .inl rfl
      · right
        have hskip : skipReason? a = some reason := by
          split at hreason
          · exact hreason
          · cases hreason
        rw [leftOut, hskip]
        rfl
    · left
      rw [errors_writeOut]
      split <;> rfl

lemma errors_extractAll (j : Jar) (showName : Bool) (entries : List Entry) (p : Progress) :
    ∃ left : List Entry, left.Sublist entries ∧
      (extractAll a j showName entries p).1.errors = p.errors ++ String.join (left.map (leftOut a)) := by
  induction entries generalizing p with
  | nil => exact ⟨[], .refl _, by simp [extractAll]⟩
  | cons e entries ih =>
    have hfirst := errors_extractEntry (a := a) j showName e p
    rw [extractAll]
    generalize extractEntry a j showName e p = done at hfirst
    obtain ⟨q, report?⟩ := done
    obtain ⟨front, hfront, hq⟩ : ∃ front : List Entry, front.Sublist [e] ∧
        q.errors = p.errors ++ String.join (front.map (leftOut a)) := by
      rcases hfirst with hfirst | hfirst
      · exact ⟨[], List.nil_sublist _, by simpa using hfirst⟩
      · exact ⟨[e], .refl _, by simpa using hfirst⟩
    cases report? with
    | some report => exact ⟨front, hfront.trans (by simp), hq⟩
    | none =>
      obtain ⟨left, hleft, hrest⟩ := ih q
      refine ⟨front ++ left, hfront.append hleft, ?_⟩
      simp only
      rw [hrest, hq, List.map_append, String.join_append, String.append_assoc]

end Errors

end Extraction

section Run

open Extraction

variable {words : List String} {a : Arguments} {d : Disk} {j : Jar}

lemma errors_execute (hopen : (openJar a (.start d)).1 = .ok j) :
    (execute a d).errors = (perform a j ⟨d, .empty, ""⟩).1.errors ++
      ((perform a j ⟨d, .empty, ""⟩).2.map Report.text).getD "" := by
  rw [execute]
  generalize openJar a (.start d) = opened at hopen
  obtain ⟨result, s⟩ := opened
  obtain rfl : result = .ok j := hopen
  simp only
  generalize perform a j ⟨d, .empty, ""⟩ = done
  obtain ⟨p, report?⟩ := done
  cases report? with
  | none => simp
  | some report => simp

/-- A run that extracts warns of the names that select none of the entries, but for patterns that are the last
component of a selected name. Where there is no such pattern it warns of just those that select none. -/
theorem run_cautions (hwords : Request.ofWords words = .run a)
    (hmode : (a.manifest || a.verbose || a.list) = false) (hquiet : a.isVeryQuiet = false)
    (hopen : (openJar a (.start d)).1 = .ok j) :
    Says a j d (a.files.filter fun file => picksNone a j file && !isLastComponent a j file)
        (run words d).errors ∧
      ((∀ file ∈ a.files, picksNone a j file = true → isLastComponent a j file = false) →
        Says a j d (a.files.filter (picksNone a j)) (run words d).errors) := by
  have hwarned : Says a j d (a.files.filter fun file => picksNone a j file && !isLastComponent a j file)
      (run words d).errors := by
    obtain ⟨left, hleft, herrors⟩ := errors_extractAll (a := a) j (1 < (selected a j).length)
      (selected a j) (warnUnmatched a (selected a j) ⟨d, .empty, ""⟩)
    rw [run, hwords]
    refine ⟨left, hleft, (errors_execute hopen).trans ?_⟩
    rw [perform_eq_run hmode, Extraction.run, herrors, warnUnmatched_eq hquiet]
    simp only [not_isMatched, Progress.warn, String.empty_append]
  refine ⟨hwarned, fun hfree => ?_⟩
  have hsame : (a.files.filter fun file => picksNone a j file && !isLastComponent a j file) =
      a.files.filter (picksNone a j) := by
    apply List.filter_congr
    intro file hfile
    cases hnone : picksNone a j file with
    | false => rfl
    | true => rw [hfree file hfile hnone]; rfl
  rwa [hsame] at hwarned

def patternsDisk : Disk :=
  let bytes := (Zip.Archive.mk [⟨"d/a?".toUTF8, "1".toUTF8, .empty, 0⟩,
    ⟨"e".toUTF8, "2".toUTF8, .empty, 0⟩] .empty false).bytes
  ((Disk.empty ["w"]).writeFile "a.jar" bytes 0).toOption.getD (.empty [])

def namingArguments (files exclude : List String) : Arguments :=
  ⟨"a.jar", files, false, false, true, false, none, exclude, false, false, false, 0, false⟩

theorem run_cautions_excluded :
    ∃ j, Request.ofWords ["-p", "a.jar", "d/*", "e", "*a?", "-x", "e"] =
        .run (namingArguments ["d/*", "e", "*a?"] ["e"]) ∧
      (openJar (namingArguments ["d/*", "e", "*a?"] ["e"]) (.start patternsDisk)).1 = .ok j ∧
      (∀ file ∈ ["d/*", "e", "*a?"],
        picksNone (namingArguments ["d/*", "e", "*a?"] ["e"]) j file = true →
          isLastComponent (namingArguments ["d/*", "e", "*a?"] ["e"]) j file = false) ∧
      Says (namingArguments ["d/*", "e", "*a?"] ["e"]) j patternsDisk ["e"]
        (run ["-p", "a.jar", "d/*", "e", "*a?", "-x", "e"] patternsDisk).errors := by
  have hwords : Request.ofWords ["-p", "a.jar", "d/*", "e", "*a?", "-x", "e"] =
      .run (namingArguments ["d/*", "e", "*a?"] ["e"]) := by
    decide +kernel
  have hs : (openJar (namingArguments ["d/*", "e", "*a?"] ["e"]) (.start patternsDisk)).1.toOption.any
      (fun j => (["d/*", "e", "*a?"].all fun file =>
        picksNone (namingArguments ["d/*", "e", "*a?"] ["e"]) j file = true →
          isLastComponent (namingArguments ["d/*", "e", "*a?"] ["e"]) j file = false) &&
        ["d/*", "e", "*a?"].filter (picksNone (namingArguments ["d/*", "e", "*a?"] ["e"]) j) =
          ["e"]) = true := by
    decide +kernel
  obtain ⟨j, hj, hs⟩ := Jar.exists_eq_ok_of_any hs
  simp only [Bool.and_eq_true, List.all_eq_true, decide_eq_true_eq] at hs
  obtain ⟨hfree, hnone⟩ := hs
  have hwarned := (run_cautions hwords rfl rfl hj).2 hfree
  have hfilter : (namingArguments ["d/*", "e", "*a?"] ["e"]).files.filter
      (picksNone (namingArguments ["d/*", "e", "*a?"] ["e"]) j) = ["e"] := hnone
  rw [hfilter] at hwarned
  exact ⟨j, hwords, hj, hfree, hwarned⟩

theorem not_cautioned_component :
    ∃ j, Request.ofWords ["-p", "a.jar", "d/*", "a?"] = .run (namingArguments ["d/*", "a?"] []) ∧
      (openJar (namingArguments ["d/*", "a?"] []) (.start patternsDisk)).1 = .ok j ∧
      ["d/*", "a?"].filter (picksNone (namingArguments ["d/*", "a?"] []) j) = ["a?"] ∧
      ¬ Says (namingArguments ["d/*", "a?"] []) j patternsDisk ["a?"]
        (run ["-p", "a.jar", "d/*", "a?"] patternsDisk).errors := by
  have hs : (openJar (namingArguments ["d/*", "a?"] []) (.start patternsDisk)).1.toOption.any
      (fun j => ["d/*", "a?"].filter (picksNone (namingArguments ["d/*", "a?"] []) j) = ["a?"]) =
        true := by
    decide +kernel
  have herrors : (run ["-p", "a.jar", "d/*", "a?"] patternsDisk).errors = "" := by decide +kernel
  obtain ⟨j, hj, hnone⟩ := Jar.exists_eq_ok_of_any hs
  refine ⟨j, by decide +kernel, hj, of_decide_eq_true hnone, ?_⟩
  rw [herrors]
  exact not_says_empty (List.cons_ne_nil _ _)

end Run
end JarReader.Command

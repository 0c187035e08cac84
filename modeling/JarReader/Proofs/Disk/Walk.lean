import JarReader.Proofs.Disk.Path
import JarReader.Proofs.Disk.Steps

namespace JarReader.Disk

inductive Thinned : List String → List String → Prop
  | nil : Thinned [] []
  | keep {xs ys : List String} (name : String) : Thinned xs ys → Thinned (name :: xs) (name :: ys)
  | drop {xs ys : List String} : Thinned xs ys → Thinned ("." :: xs) ys

lemma Thinned.append {xs ys : List String} (h : Thinned xs ys) (front : List String) :
    Thinned (front ++ xs) (front ++ ys) := by
  induction front with
  | nil => exact h
  | cons name front ih => exact .keep name ih

lemma thinned_filter (names : List String) : Thinned names (names.filter (· ≠ ".")) := by
  induction names with
  | nil => exact .nil
  | cons name names ih =>
    by_cases hname : name = "."
    · subst hname
      exact .drop ih
    · rw [List.filter_cons_of_pos (by simpa using hname)]
      exact .keep name ih

section Walk

variable {d : Disk} {place location : Location} {id : FileId} {names names' : List String}

lemma walkNames_thinned
    {enter enter' : Location → String → List String → Except SystemFault Place}
    (henter : ∀ l target xs ys, Thinned xs ys → enter l target xs = .ok (.node place (.file id)) →
      enter' l target ys = .ok (.node place (.file id)))
    (hn : Thinned names names')
    (h : d.walkNames .find enter location names = .ok (.node place (.file id))) :
    d.walkNames .find enter' location names' = .ok (.node place (.file id)) := by
  -- Where a name is left out, the walk is in a directory and stays in it; at a link, `enter` takes over.
  induction hn generalizing location with
  | nil => exact h
  | keep name hs ih =>
    cases goes_of_walkNames (by decide) h with
    | stay hdirectory hname h => exact (walkNames_stay hdirectory hname).trans (ih h)
    | up hdirectory hname hrest =>
      subst hname
      exact (walkNames_up hdirectory).trans (ih hrest)
    | vacant _ _ hplace => cases hplace
    | link hdown _ h => exact (hdown.walkNames_link (by decide) (by simp)).trans (henter _ _ _ _ hs h)
    | down hdown hlink _ h => exact (hdown.walkNames_down hlink (by decide) (by simp)).trans (ih h)
  | drop _ ih =>
    cases goes_of_walkNames (by decide) h with
    | stay _ _ h => exact ih h
    | up _ hname => exact absurd hname (by decide)
    | vacant _ _ hplace => cases hplace
    | link hdown => exact absurd rfl hdown.ne_here
    | down hdown => exact absurd rfl hdown.ne_here

lemma walk_thinned (hn : Thinned names names') {links : Nat}
    (h : d.walk .find links location names = .ok (.node place (.file id))) :
    d.walk .find links location names' = .ok (.node place (.file id)) := by
  induction links generalizing location names names' with
  | zero => exact walkNames_thinned (fun _ _ _ _ _ he => by cases he) hn h
  | succ links ih => exact walkNames_thinned (fun _ target _ _ hs he => ih (hs.append _) he) hn h

end Walk

section File

variable {d : Disk} {path : String} {id : FileId}

lemma openFile_eq_ok_iff :
    d.openFile path = .ok id ↔ ∃ place, pathFault? path = none ∧
      d.walk .find maxLinks (d.startOf path) (steps path) = .ok (.node place (.file id)) := by
  simp only [openFile_iff_find, find_eq_ok_iff]

lemma pathFault?_eq_none_iff :
    pathFault? path = none ↔
      '\x00' ∉ path.toList ∧ path ≠ "" ∧ path.utf8ByteSize ≤ maxPath := by
  simp only [pathFault?, hasNul, List.contains_iff_mem]
  by_cases hnul : '\x00' ∈ path.toList
  · simp [hnul]
  · by_cases hne : path = ""
    · simp [hne]
    · simp [hnul, hne]

lemma kept_ne_nil (habsolute : Path.isAbsolute path = true) (h : d.openFile path = .ok id) :
    Path.kept path ≠ [] := by
  obtain ⟨place, _, hwalk⟩ := openFile_eq_ok_iff.mp h
  intro hnil
  have hroot := walk_thinned (thinned_filter (steps path)) hwalk
  rw [← Path.kept, hnil, startOf, if_pos habsolute, maxLinks, walk, walkNames, node?, if_pos rfl] at hroot
  cases hroot

lemma utf8ByteSize_le_of_sublist {s t : String} (h : s.toList.Sublist t.toList) :
    s.utf8ByteSize ≤ t.utf8ByteSize := by
  have hsize (s : String) : s.utf8ByteSize = (s.toList.flatMap String.utf8EncodeChar).length := by
    rw [← String.size_toByteArray, ← String.utf8Encode_toList, List.utf8Encode,
      List.size_toByteArray]
  rw [hsize, hsize]
  exact (h.flatMap _).length_le

lemma openFile_absolute (home : String) (habsolute : Path.isAbsolute path = true)
    (hsingle : Path.beginsWith "//" path = false) (h : d.openFile path = .ok id) :
    d.openFile (Path.absolute home path) = .ok id := by
  have hkept := kept_ne_nil habsolute h
  obtain ⟨place, hfault, hwalk⟩ := openFile_eq_ok_iff.mp h
  have hsub := Path.toList_absolute_sublist home habsolute hsingle hkept
  have hstart := Path.isAbsolute_absolute home habsolute hsingle hkept
  refine openFile_eq_ok_iff.mpr ⟨place, ?_, ?_⟩
  · obtain ⟨hnul, _, hsize⟩ := pathFault?_eq_none_iff.mp hfault
    refine pathFault?_eq_none_iff.mpr ⟨fun hmem => hnul (hsub.subset hmem), ?_, ?_⟩
    · intro he
      rw [he] at hstart
      cases hstart
    · exact (utf8ByteSize_le_of_sublist hsub).trans hsize
  · rw [startOf, if_pos habsolute] at hwalk
    rw [startOf, if_pos hstart, Path.steps_absolute home habsolute hsingle hkept]
    exact walk_thinned (thinned_filter (steps path)) hwalk

end File

end JarReader.Disk

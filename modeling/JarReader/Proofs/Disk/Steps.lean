import JarReader.Disk.Basic
import Mathlib.Tactic.Lemma

namespace JarReader.Disk

structure LeadsDown (d : Disk) (location : Location) (name : String) (found : Node) : Prop where
  directory : d.node? location = some .directory
  ne_empty : name ≠ ""
  ne_here : name ≠ "."
  ne_up : name ≠ ".."
  short : isTooLong name = false
  child : d.node? (location ++ [name]) = some found

section Step

variable {d : Disk} {purpose : Purpose} {location : Location} {name : String} {rest : List String}
  {place : Place} {enter : Location → String → List String → Except SystemFault Place}

lemma walkNames_nil_eq_ok (h : d.walkNames purpose enter location [] = .ok place) :
    ∃ node, d.node? location = some node ∧ place = .node location node := by
  rw [walkNames] at h
  split at h
  · exact ⟨_, ‹_›, (Except.ok.inj h).symm⟩
  · cases h

lemma walkNames_stay (hdirectory : d.node? location = some .directory) (hname : name = "" ∨ name = ".") :
    d.walkNames purpose enter location (name :: rest) = d.walkNames purpose enter location rest := by
  rw [walkNames, hdirectory]
  exact if_pos (by simpa using hname)

lemma walkNames_up (hdirectory : d.node? location = some .directory) :
    d.walkNames purpose enter location (".." :: rest) =
      d.walkNames purpose enter location.dropLast rest := by
  rw [walkNames, hdirectory]
  rfl

namespace LeadsDown

lemma walkNames_eq {found : Node} (h : d.LeadsDown location name found) (hpurpose : purpose ≠ .change)
    (hrest : purpose = .make → rest ≠ [""]) :
    d.walkNames purpose enter location (name :: rest) =
      match found with
      | .link target => enter location target rest
      | _ => d.walkNames purpose enter (location ++ [name]) rest := by
  have hmoves : ¬(name = "" || name = ".") = true := by simp [h.ne_empty, h.ne_here]
  have hlast : ¬(purpose = .make && rest = [""]) = true := by simpa using hrest
  rw [walkNames, h.directory]
  simp only
  rw [if_neg hmoves, if_neg h.ne_up, if_neg (by simp [hpurpose]), if_neg hlast, h.short,
    if_neg Bool.false_ne_true, h.child]
  cases found <;> rfl

lemma walkNames_link {target : String} (h : d.LeadsDown location name (.link target))
    (hpurpose : purpose ≠ .change) (hrest : purpose = .make → rest ≠ [""]) :
    d.walkNames purpose enter location (name :: rest) = enter location target rest :=
  h.walkNames_eq hpurpose hrest

lemma walkNames_down {found : Node} (h : d.LeadsDown location name found)
    (hlink : ∀ target, found ≠ .link target) (hpurpose : purpose ≠ .change)
    (hrest : purpose = .make → rest ≠ [""]) :
    d.walkNames purpose enter location (name :: rest) =
      d.walkNames purpose enter (location ++ [name]) rest := by
  apply (h.walkNames_eq hpurpose hrest).trans
  cases found with
  | link target => exact absurd rfl (hlink target)
  | directory => rfl
  | file id => rfl

end LeadsDown

/-- What the first step of a walk that succeeds can be. -/
inductive Goes (d : Disk) (purpose : Purpose)
    (enter : Location → String → List String → Except SystemFault Place) (location : Location)
    (name : String) (rest : List String) (place : Place) : Prop
  | stay : d.node? location = some .directory → name = "" ∨ name = "." →
      d.walkNames purpose enter location rest = .ok place → Goes d purpose enter location name rest place
  | up : d.node? location = some .directory → name = ".." →
      d.walkNames purpose enter location.dropLast rest = .ok place →
      Goes d purpose enter location name rest place
  | vacant : isTooLong name = false → rest = [] → place = .vacant location name →
      Goes d purpose enter location name rest place
  | link {target : String} : d.LeadsDown location name (.link target) → (purpose = .make → rest ≠ [""]) →
      enter location target rest = .ok place → Goes d purpose enter location name rest place
  | down {found : Node} : d.LeadsDown location name found → (∀ target, found ≠ .link target) →
      (purpose = .make → rest ≠ [""]) → d.walkNames purpose enter (location ++ [name]) rest = .ok place →
      Goes d purpose enter location name rest place

lemma goes_of_walkNames (hpurpose : purpose ≠ .change)
    (h : d.walkNames purpose enter location (name :: rest) = .ok place) :
    Goes d purpose enter location name rest place := by
  rw [walkNames] at h
  split at h
  · rename_i hdirectory
    by_cases hstay : name = "" ∨ name = "."
    · rw [if_pos (by simpa using hstay)] at h
      exact .stay hdirectory hstay h
    rw [if_neg (by simpa using hstay)] at h
    by_cases hup : name = ".."
    · rw [if_pos hup] at h
      exact .up hdirectory hup h
    rw [if_neg hup, if_neg (by simp [hpurpose])] at h
    by_cases hlast : (purpose = .make && rest = [""]) = true
    · rw [if_pos hlast] at h
      cases h
    have hrest : purpose = .make → rest ≠ [""] := by simpa using hlast
    rw [if_neg hlast] at h
    by_cases hlong : isTooLong name = true
    · rw [if_pos hlong] at h
      cases h
    have hshort : isTooLong name = false := Bool.eq_false_iff.mpr hlong
    rw [if_neg hlong] at h
    obtain ⟨hempty, hhere⟩ := not_or.mp hstay
    split at h
    · split at h
      · exact .vacant hshort ‹_› (Except.ok.inj h).symm
      · cases h
    · exact .link ⟨hdirectory, hempty, hhere, hup, hshort, ‹_›⟩ hrest h
    · rename_i hlink hchild
      exact .down ⟨hdirectory, hempty, hhere, hup, hshort, hchild⟩ hlink hrest h
  · cases h
  · cases h

end Step

lemma exists_walkNames (d : Disk) (purpose : Purpose) (links : Nat) :
    ∃ enter, d.walk purpose links = d.walkNames purpose enter := by
  cases links with
  | zero => exact ⟨_, by funext location names; rfl⟩
  | succ links => exact ⟨_, by funext location names; rfl⟩

section Kept

variable {d d' : Disk} {location target : Location} {node : Node} {names : List String}
  (hkept : ∀ location node, d.node? location = some node → d'.node? location = some node)
include hkept

lemma LeadsDown.kept {name : String} {found : Node} (h : d.LeadsDown location name found) :
    d'.LeadsDown location name found :=
  { h with directory := hkept _ _ h.directory, child := hkept _ _ h.child }

lemma walkNames_kept {enter enter' : Location → String → List String → Except SystemFault Place}
    (henter : ∀ l text rest, enter l text rest = .ok (.node target node) →
      enter' l text rest = .ok (.node target node))
    (h : d.walkNames .find enter location names = .ok (.node target node)) :
    d'.walkNames .find enter' location names = .ok (.node target node) := by
  induction names generalizing location with
  | nil =>
    obtain ⟨_, hnode, hplace⟩ := walkNames_nil_eq_ok h
    cases hplace
    rw [walkNames, hkept _ _ hnode]
  | cons name rest ih =>
    cases goes_of_walkNames (by decide) h with
    | stay hdirectory hname h => exact (walkNames_stay (hkept _ _ hdirectory) hname).trans (ih h)
    | up hdirectory hname hrest =>
      subst hname
      exact (walkNames_up (hkept _ _ hdirectory)).trans (ih hrest)
    | vacant _ _ hplace => cases hplace
    | link hdown hslash h =>
      exact ((hdown.kept hkept).walkNames_link (by decide) hslash).trans (henter _ _ _ h)
    | down hdown hlink hslash h =>
      exact ((hdown.kept hkept).walkNames_down hlink (by decide) hslash).trans (ih h)

lemma walk_kept {links : Nat} (h : d.walk .find links location names = .ok (.node target node)) :
    d'.walk .find links location names = .ok (.node target node) := by
  induction links generalizing location names with
  | zero => exact walkNames_kept hkept (fun _ _ _ he => by cases he) h
  | succ links ih => exact walkNames_kept hkept (fun _ _ _ he => ih he) h

end Kept

section Find

variable {d d' : Disk} {path : String} {location : Location} {node : Node}

lemma find_eq_ok_iff :
    d.find path = .ok (location, node) ↔ pathFault? path = none ∧
      d.walk .find maxLinks (d.startOf path) (steps path) = .ok (.node location node) := by
  simp only [find, locate]
  cases pathFault? path with
  | some fault => simp
  | none =>
    simp only [true_and]
    generalize d.walk .find maxLinks (d.startOf path) (steps path) = result
    cases result with
    | error fault => simp
    | ok place => cases place <;> simp

lemma pathExists_iff : d.pathExists path = true ↔ ∃ location node, d.find path = .ok (location, node) := by
  rw [pathExists]
  cases d.find path with
  | error fault => simp
  | ok found => simp [Prod.ext_iff]

lemma openFile_iff_find {id : FileId} :
    d.openFile path = .ok id ↔ ∃ location, d.find path = .ok (location, .file id) := by
  rw [openFile]
  rcases d.find path with _ | ⟨_, _ | _ | _⟩ <;> simp

lemma find_kept (hhome : d'.home = d.home)
    (hkept : ∀ location node, d.node? location = some node → d'.node? location = some node)
    (h : d.find path = .ok (location, node)) : d'.find path = .ok (location, node) := by
  obtain ⟨hfault, hwalk⟩ := find_eq_ok_iff.mp h
  apply find_eq_ok_iff.mpr
  refine ⟨hfault, ?_⟩
  rw [startOf, hhome, ← startOf]
  exact walk_kept hkept hwalk

end Find

end JarReader.Disk

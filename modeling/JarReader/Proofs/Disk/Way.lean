import JarReader.Disk.Basic
import Mathlib.Tactic.Lemma

/-! Ways along names from a location to a place, step by step and without regard to how many links a walk
may follow. Names that stand for the directory they are in are no steps. -/

namespace JarReader

def Place.IsOn (d : Disk) : Place → Prop
  | node location found => d.node? location = some found
  | vacant parent name => d.node? parent = some .directory ∧ d.node? (parent ++ [name]) = none

def Place.Within (base : Location) : Place → Prop
  | node location _ => base <+: location
  | vacant parent _ => base <+: parent

namespace Disk

def moves (names : List String) : List String := names.filter fun name => name ≠ "" && name ≠ "."

@[simp] lemma moves_append (xs ys : List String) : moves (xs ++ ys) = moves xs ++ moves ys :=
  List.filter_append xs ys

structure LooksUp (d : Disk) (location : Location) (name : String) : Prop where
  directory : d.node? location = some .directory
  ne_up : name ≠ ".."

inductive Way (d : Disk) : Location → List String → Place → Prop
  | here {location : Location} {node : Node} : d.node? location = some node →
      Way d location [] (.node location node)
  | up {location : Location} {rest : List String} {place : Place} :
      d.node? location = some .directory → Way d location.dropLast rest place →
      Way d location (".." :: rest) place
  | vacant {location : Location} {name : String} : d.LooksUp location name →
      d.node? (location ++ [name]) = none → Way d location [name] (.vacant location name)
  | follow {location : Location} {name target : String} {rest : List String} {place : Place} :
      d.LooksUp location name → d.node? (location ++ [name]) = some (.link target) →
      Way d (if Path.isAbsolute target then [] else location) (moves (steps target) ++ rest) place →
      Way d location (name :: rest) place
  | down {location : Location} {name : String} {node : Node} {rest : List String} {place : Place} :
      d.LooksUp location name → d.node? (location ++ [name]) = some node →
      (∀ target, node ≠ .link target) → Way d (location ++ [name]) rest place →
      Way d location (name :: rest) place

section

variable {d : Disk} {purpose : Purpose} {location : Location} {names : List String} {place : Place}

-- A walk that is to change its last name does not follow it, so it ends elsewhere if that is a link.
lemma way_of_walkNames {enter : Location → String → List String → Except SystemFault Place}
    (hends : purpose ≠ .change ∨ ∃ parent name, place = .vacant parent name)
    (henter : ∀ l target rest, enter l target rest = .ok place →
      d.Way (if Path.isAbsolute target then [] else l) (moves (steps target ++ rest)) place)
    (h : d.walkNames purpose enter location names = .ok place) :
    d.Way location (moves names) place := by
  induction names generalizing location with
  | nil =>
    rw [walkNames] at h
    split at h
    · cases h
      exact .here ‹_›
    · cases h
  | cons name rest ih =>
    rw [walkNames] at h
    split at h
    · rename_i hdirectory
      by_cases hstay : name = "" ∨ name = "."
      · rw [if_pos (by simpa using hstay)] at h
        have hmoves : moves (name :: rest) = moves rest :=
          List.filter_cons_of_neg (by rcases hstay with rfl | rfl <;> decide)
        rw [hmoves]
        exact ih h
      rw [if_neg (by simpa using hstay)] at h
      have hmoves : moves (name :: rest) = name :: moves rest :=
        List.filter_cons_of_pos (by simpa using hstay)
      rw [hmoves]
      by_cases hup : name = ".."
      · rw [if_pos hup] at h
        exact hup ▸ .up hdirectory (ih h)
      rw [if_neg hup] at h
      have hlooks : d.LooksUp location name := ⟨hdirectory, hup⟩
      split at h
      · rename_i hlast
        simp only [Bool.and_eq_true, Bool.or_eq_true, decide_eq_true_eq] at hlast
        obtain ⟨parent, vacant, rfl⟩ := hends.resolve_left fun hne => hne hlast.1
        have hrest : moves rest = [] := by rcases hlast.2 with rfl | rfl <;> rfl
        have hplace := Except.ok.inj h
        rw [placeIn] at hplace
        split at hplace
        · cases hplace
        · cases hplace
          exact hrest ▸ .vacant hlooks ‹_›
      split at h
      · cases h
      split at h
      · cases h
      split at h
      · split at h
        · rename_i hnone hrest
          cases h
          exact hrest ▸ .vacant hlooks hnone
        · cases h
      · have hway := henter _ _ _ h
        rw [moves_append] at hway
        exact .follow hlooks ‹_› hway
      · rename_i hlink hnode
        exact .down hlooks hnode hlink (ih h)
    · cases h
    · cases h

lemma way_of_walk (hends : purpose ≠ .change ∨ ∃ parent name, place = .vacant parent name)
    {links : Nat} (h : d.walk purpose links location names = .ok place) :
    d.Way location (moves names) place := by
  induction links generalizing location names with
  | zero => exact way_of_walkNames hends (fun _ _ _ he => by cases he) h
  | succ links ih => exact way_of_walkNames hends (fun _ _ _ he => ih he) h

lemma way_of_locate {path : String} (h : d.locate purpose path = .ok place)
    (hends : purpose ≠ .change ∨ ∃ parent name, place = .vacant parent name) :
    d.Way (d.startOf path) (moves (steps path)) place := by
  rw [locate] at h
  split at h
  · cases h
  · exact way_of_walk hends h

lemma way_of_find {path : String} {found : Node} (h : d.find path = .ok (location, found)) :
    d.Way (d.startOf path) (moves (steps path)) (.node location found) := by
  rw [find] at h
  split at h
  · rename_i hlocate
    cases h
    exact way_of_locate hlocate (.inl (by decide))
  · cases h
  · cases h

lemma ne_empty_of_locate {path : String} (h : d.locate purpose path = .ok place) : path ≠ "" := by
  rintro rfl
  cases h

end

namespace Way

variable {d : Disk} {location middle : Location} {xs ys : List String} {place : Place} {node : Node}

lemma isOn (h : d.Way location xs place) : place.IsOn d := by
  induction h with
  | here hnode => exact hnode
  | up _ _ ih => exact ih
  | vacant hlooks hnone => exact ⟨hlooks.directory, hnone⟩
  | follow _ _ _ ih => exact ih
  | down _ _ _ _ ih => exact ih

lemma rest (hfirst : d.Way location xs (.node middle node)) (h : d.Way location (xs ++ ys) place) :
    d.Way middle ys place := by
  generalize hmiddle : Place.node middle node = found at hfirst
  induction hfirst with
  | here _ =>
    cases hmiddle
    exact h
  | @up _ rest _ _ _ ih =>
    rw [List.cons_append] at h
    generalize hnames : rest ++ ys = names at h ih
    cases h with
    | up _ h => exact ih h hmiddle
    | vacant hlooks => exact absurd rfl hlooks.ne_up
    | follow hlooks => exact absurd rfl hlooks.ne_up
    | down hlooks => exact absurd rfl hlooks.ne_up
  | vacant => cases hmiddle
  | @follow _ _ _ rest _ hlooks hlink _ ih =>
    rw [List.cons_append] at h
    rw [List.append_assoc] at ih
    generalize hnames : rest ++ ys = names at h ih
    cases h with
    | up => exact absurd rfl hlooks.ne_up
    | vacant _ hnone => cases hlink.symm.trans hnone
    | follow _ hlink' h =>
      cases hlink.symm.trans hlink'
      exact ih h hmiddle
    | down _ hnode hne => exact absurd (Option.some.inj (hnode.symm.trans hlink)) (hne _)
  | @down _ _ _ rest _ hlooks hnode hne _ ih =>
    rw [List.cons_append] at h
    generalize hnames : rest ++ ys = names at h ih
    cases h with
    | up => exact absurd rfl hlooks.ne_up
    | vacant _ hnone => cases hnode.symm.trans hnone
    | follow _ hlink _ => exact absurd (Option.some.inj (hnode.symm.trans hlink)) (hne _)
    | down _ _ _ h => exact ih h hmiddle

lemma exists_first (h : d.Way location (xs ++ ys) (.node middle node)) :
    ∃ first found, d.Way location xs (.node first found) := by
  generalize hnames : xs ++ ys = names at h
  generalize hplace : Place.node middle node = place at h
  induction h generalizing xs with
  | here hnode =>
    obtain ⟨rfl, -⟩ := List.append_eq_nil_iff.mp hnames
    exact ⟨_, _, .here hnode⟩
  | vacant => cases hplace
  | up hdirectory _ ih =>
    cases xs with
    | nil => exact ⟨_, _, .here hdirectory⟩
    | cons x xs =>
      obtain ⟨rfl, hrest⟩ := List.cons.inj hnames
      obtain ⟨first, found, hway⟩ := ih hrest hplace
      exact ⟨first, found, .up hdirectory hway⟩
  | @follow _ _ target rest _ hlooks hlink _ ih =>
    cases xs with
    | nil => exact ⟨_, _, .here hlooks.directory⟩
    | cons x xs =>
      obtain ⟨rfl, hrest⟩ := List.cons.inj hnames
      have hnames : (moves (steps target) ++ xs) ++ ys = moves (steps target) ++ rest := by
        rw [List.append_assoc, ← hrest]
        rfl
      obtain ⟨first, found, hway⟩ := ih hnames hplace
      exact ⟨first, found, .follow hlooks hlink hway⟩
  | down hlooks hnode hne _ ih =>
    cases xs with
    | nil => exact ⟨_, _, .here hlooks.directory⟩
    | cons x xs =>
      obtain ⟨rfl, hrest⟩ := List.cons.inj hnames
      obtain ⟨first, found, hway⟩ := ih hrest hplace
      exact ⟨first, found, .down hlooks hnode hne hway⟩

lemma kept {d' : Disk}
    (hkept : ∀ location node, d.node? location = some node → d'.node? location = some node)
    (h : d.Way location xs (.node middle node)) : d'.Way location xs (.node middle node) := by
  generalize hplace : Place.node middle node = place at h
  induction h with
  | here hnode => exact .here (hkept _ _ hnode)
  | up hdirectory _ ih => exact .up (hkept _ _ hdirectory) (ih hplace)
  | vacant => cases hplace
  | follow hlooks hlink _ ih =>
    exact .follow ⟨hkept _ _ hlooks.directory, hlooks.ne_up⟩ (hkept _ _ hlink) (ih hplace)
  | down hlooks hnode hne _ ih =>
    exact .down ⟨hkept _ _ hlooks.directory, hlooks.ne_up⟩ (hkept _ _ hnode) hne (ih hplace)

end Way

def LinkFree (d : Disk) (base : Location) : Prop :=
  ∀ location target, base <+: location → d.node? location ≠ some (.link target)

/-- Whether `names`, followed from `depth` directories below a directory, stay in it. -/
def staysBelow : (depth : Nat) → List String → Bool
  | _, [] => true
  | depth, name :: rest =>
    if name = ".." then depth ≠ 0 && staysBelow (depth - 1) rest else staysBelow (depth + 1) rest

lemma staysBelow_of_isPrefix {depth : Nat} {xs ys : List String} (hbegins : xs <+: ys)
    (h : staysBelow depth ys = true) : staysBelow depth xs = true := by
  induction xs generalizing depth ys with
  | nil => rfl
  | cons x xs ih =>
    obtain ⟨zs, rfl⟩ := hbegins
    have hrest : xs <+: xs ++ zs := List.prefix_append xs zs
    simp only [List.cons_append, staysBelow] at h ⊢
    split
    · rw [if_pos ‹_›, Bool.and_eq_true] at h
      rw [h.1, ih hrest h.2]
      rfl
    · rw [if_neg ‹_›] at h
      exact ih hrest h

lemma Way.within {d : Disk} {base : Location} {names : List String} {place : Place}
    (front : Location) (hlinks : d.LinkFree base)
    (hstays : staysBelow front.length names = true) (h : d.Way (base ++ front) names place) :
    place.Within base := by
  generalize hlocation : base ++ front = location at h
  induction h generalizing front with
  | here => exact ⟨front, hlocation⟩
  | up _ _ ih =>
    rw [staysBelow, if_pos rfl, Bool.and_eq_true, decide_eq_true_eq] at hstays
    have hne : front ≠ [] := List.ne_nil_of_length_pos (Nat.pos_of_ne_zero hstays.1)
    refine ih front.dropLast ?_ ?_
    · rw [List.length_dropLast]
      exact hstays.2
    · rw [← hlocation, List.dropLast_append_of_ne_nil hne]
  | vacant => exact ⟨front, hlocation⟩
  | @follow location name target rest _ hlooks hlink _ _ =>
    exact absurd hlink (hlinks _ _ ⟨front ++ [name], by rw [← List.append_assoc, hlocation]⟩)
  | @down _ name _ rest _ hlooks _ _ _ ih =>
    refine ih (front ++ [name]) ?_ (by rw [← List.append_assoc, hlocation])
    rw [staysBelow, if_neg hlooks.ne_up] at hstays
    rwa [List.length_append]

section Along

variable {d : Disk} {start base : Location} {xs ys zs : List String} (hlinks : d.LinkFree base)
  (hstays : staysBelow 0 ys = true) (hbase : d.Way start xs (.node base .directory))
include hlinks hstays hbase

lemma Way.within_append {place : Place} (h : d.Way start (xs ++ ys) place) : place.Within base := by
  have hrest := hbase.rest h
  rw [← List.append_nil base] at hrest
  exact hrest.within [] hlinks hstays

lemma Way.prefix_of_vacant {parent : Location} {name : String} (hbegins : zs <+: xs ++ ys)
    (h : d.Way start zs (.vacant parent name)) : base <+: parent := by
  rcases List.prefix_or_prefix_of_prefix hbegins (List.prefix_append xs ys) with hzs | ⟨ns, rfl⟩
  -- on the way to `base` all names are there
  · obtain ⟨ws, rfl⟩ := hzs
    obtain ⟨_, _, hfirst⟩ := hbase.exists_first
    rw [← List.append_nil zs] at h
    cases hfirst.rest h
  · exact hbase.within_append hlinks
      (staysBelow_of_isPrefix ((List.prefix_append_right_inj xs).mp hbegins) hstays) h

end Along

end Disk

end JarReader

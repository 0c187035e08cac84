import JarReader.Proofs.Disk.Clean
import JarReader.Proofs.Disk.Leads

namespace JarReader

def Place.location : Place → Location
  | node location _ => location
  | vacant parent name => parent ++ [name]

namespace Disk

section Append

variable {d : Disk} {purpose : Purpose} {location base : Location} {xs ys tail : List String}
  (hpurpose : purpose ≠ .change) (htail : tail = [] ∨ tail = [""])
  (hys : ∀ front, front ++ ys ≠ [] ∧ front ++ ys ≠ [""])
include hpurpose htail hys

lemma walkNames_append {enter enter' : Location → String → List String → Except SystemFault Place}
    (hbase : ∃ links, d.walkNames purpose enter' base ys = d.walk purpose links base ys)
    (henter : ∀ l text rest, enter l text (rest ++ tail) = .ok (.node base .directory) →
      ∃ links, enter' l text (rest ++ ys) = d.walk purpose links base ys)
    (h : d.walkNames .find enter location (xs ++ tail) = .ok (.node base .directory)) :
    ∃ links, d.walkNames purpose enter' location (xs ++ ys) = d.walk purpose links base ys := by
  induction xs generalizing location with
  | nil =>
    have hnil {location : Location}
        (h : d.walkNames .find enter location [] = .ok (.node base .directory)) : location = base := by
      obtain ⟨_, _, hplace⟩ := walkNames_nil_eq_ok h
      exact (Place.node.inj hplace).1.symm
    have hlocation : location = base := by
      rcases htail with rfl | rfl
      · exact hnil h
      · cases goes_of_walkNames (by decide) h with
        | stay _ _ h => exact hnil h
        | up _ hname => exact absurd hname (by decide)
        | vacant _ _ hplace => cases hplace
        | link hdown => exact absurd rfl hdown.ne_empty
        | down hdown => exact absurd rfl hdown.ne_empty
    exact hlocation ▸ hbase
  | cons name xs ih =>
    cases goes_of_walkNames (by decide) h with
    | stay hdirectory hname h =>
      obtain ⟨links, he⟩ := ih h
      exact ⟨links, (walkNames_stay hdirectory hname).trans he⟩
    | up hdirectory hname h =>
      obtain ⟨links, he⟩ := ih h
      subst hname
      exact ⟨links, (walkNames_up hdirectory).trans he⟩
    | vacant _ _ hplace => cases hplace
    | link hdown _ h =>
      obtain ⟨links, he⟩ := henter _ _ _ h
      exact ⟨links, (hdown.walkNames_link hpurpose fun _ => (hys xs).2).trans he⟩
    | down hdown hlink _ h =>
      obtain ⟨links, he⟩ := ih h
      exact ⟨links, (hdown.walkNames_down hlink hpurpose fun _ => (hys xs).2).trans he⟩

lemma walk_append {links : Nat}
    (h : d.walk .find links location (xs ++ tail) = .ok (.node base .directory)) :
    ∃ links', d.walk purpose links location (xs ++ ys) = d.walk purpose links' base ys := by
  induction links generalizing location xs with
  | zero => exact walkNames_append hpurpose htail hys ⟨0, rfl⟩ (fun _ _ _ he => by cases he) h
  | succ links ih =>
    apply walkNames_append hpurpose htail hys ⟨links + 1, rfl⟩ _ h
    intro l text rest he
    rw [← List.append_assoc] at he ⊢
    exact ih he

end Append

section Below

variable {d : Disk} {base : Location} {names : List String}

lemma LinkFree.append (h : d.LinkFree base) (names : List String) : d.LinkFree (base ++ names) :=
  fun location target hbelow => h location target ((List.prefix_append base names).trans hbelow)

variable (hfree : d.LinkFree base) (hnames : ∀ name ∈ names, name ≠ "" ∧ name ≠ "." ∧ name ≠ "..")
include hfree hnames

lemma location_of_walkNames {purpose : Purpose} (hpurpose : purpose ≠ .change)
    {enter : Location → String → List String → Except SystemFault Place} {place : Place}
    (h : d.walkNames purpose enter base names = .ok place) :
    (∀ name ∈ names, isTooLong name = false) ∧ place.location = base ++ names := by
  induction names generalizing base with
  | nil =>
    obtain ⟨_, _, rfl⟩ := walkNames_nil_eq_ok h
    exact ⟨List.forall_mem_nil _, (List.append_nil base).symm⟩
  | cons name rest ih =>
    obtain ⟨hempty, hhere, hup⟩ := hnames name List.mem_cons_self
    have hothers : ∀ n ∈ rest, n ≠ "" ∧ n ≠ "." ∧ n ≠ ".." := fun n hn =>
      hnames n (List.mem_cons_of_mem name hn)
    cases goes_of_walkNames hpurpose h with
    | stay _ hname => exact absurd hname (not_or.mpr ⟨hempty, hhere⟩)
    | up _ hname => exact absurd hname hup
    | vacant hshort hrest hplace =>
      subst hrest hplace
      exact ⟨List.forall_mem_singleton.mpr hshort, rfl⟩
    | link hdown => exact absurd hdown.child (hfree _ _ (List.prefix_append base [name]))
    | down hdown _ _ h =>
      obtain ⟨hshort, hlocation⟩ := ih (hfree.append [name]) hothers h
      refine ⟨List.forall_mem_cons.mpr ⟨hdown.short, hshort⟩, ?_⟩
      rw [hlocation, List.append_assoc, List.singleton_append]

lemma leads_below (hwell : d.WellFormed) (hshort : ∀ name ∈ names, isTooLong name = false) {node : Node}
    (hnode : d.node? (base ++ names) = some node) : d.Leads (base ++ names) node base names := by
  induction names generalizing base with
  | nil =>
    rw [List.append_nil] at hnode ⊢
    exact .here hnode
  | cons name rest ih =>
    obtain ⟨hempty, hhere, hup⟩ := hnames name List.mem_cons_self
    have hdirectory : d.node? base = some .directory :=
      hwell.prefix_directory (List.cons_ne_nil name rest) hnode
    rw [List.append_cons] at hnode ⊢
    obtain ⟨found, hfound⟩ : ∃ found, d.node? (base ++ [name]) = some found := by
      by_cases hrest : rest = []
      · subst hrest
        rw [List.append_nil] at hnode
        exact ⟨node, hnode⟩
      · exact ⟨_, hwell.prefix_directory hrest hnode⟩
    have hdown : d.LeadsDown base name found :=
      ⟨hdirectory, hempty, hhere, hup, hshort name List.mem_cons_self, hfound⟩
    apply Leads.down hdown
    · rintro text rfl
      exact hfree _ _ (List.prefix_append base [name]) hfound
    · apply ih (hfree.append [name])
      · exact fun n hn => hnames n (List.mem_cons_of_mem name hn)
      · exact fun n hn => hshort n (List.mem_cons_of_mem name hn)
      · exact hnode

end Below

/-- A directory without links below it. Its files may have further names. -/
structure Hosts (d : Disk) (directory : String) (base : Location) : Prop where
  found : d.find directory = .ok (base, .directory)
  free : d.LinkFree base
  well : d.WellFormed

def OneName (d : Disk) (id : FileId) : Prop :=
  ∀ location other, d.node? location = some (.file id) → d.node? other = some (.file id) →
    other = location

lemma oneName_of_nodes {d : Disk}
    (h : ∀ x ∈ d.nodes, ∀ y ∈ d.nodes, x.2 = y.2 → x.2 = .directory ∨ y.1 = x.1) (id : FileId) :
    d.OneName id := by
  intro location other hlocation hother
  have hmem {l : Location} (hl : d.node? l = some (.file id)) : (l, .file id) ∈ d.nodes := by
    apply mem_nodes_of_node? _ hl
    rintro rfl
    cases hl
  exact (h _ (hmem hlocation) _ (hmem hother) rfl).resolve_left nofun

def Fits (directory name : String) : Prop :=
  pathFault? (Path.join directory name) = none ∧ ∀ piece ∈ Path.pieces name, isTooLong piece = false

namespace Hosts

variable {d : Disk} {directory name : String} {base : Location} (h : d.Hosts directory base)
  (hname : Path.Clean name)
include h hname

lemma exists_walk (purpose : Purpose) (hpurpose : purpose ≠ .change) :
    ∃ links, d.walk purpose maxLinks (d.startOf (Path.join directory name))
      (steps (Path.join directory name)) = d.walk purpose links base (Path.pieces name) := by
  obtain ⟨hfault, hwalk⟩ := find_eq_ok_iff.mp h.found
  have hne : directory ≠ "" := by
    rintro rfl
    cases hfault
  have hstart : d.startOf (Path.join directory name) = d.startOf directory := by
    rw [startOf, Path.isAbsolute_join hname.isAbsolute hne, ← startOf]
  rw [hstart, hname.steps_join]
  refine walk_append hpurpose ?_ ?_ hwalk
  · split
    · exact .inr rfl
    · exact .inl rfl
  · intro front
    refine ⟨fun hnil => hname.pieces_ne_nil (List.append_eq_nil_iff.mp hnil).2, fun hone => ?_⟩
    obtain ⟨piece, hpiece⟩ := List.exists_mem_of_ne_nil _ hname.pieces_ne_nil
    have hmem : piece ∈ [""] := hone ▸ List.mem_append_right front hpiece
    exact (hname.ne_of_mem hpiece).1 (List.mem_singleton.mp hmem)

lemma fits_of_locate {purpose : Purpose} (hpurpose : purpose ≠ .change) {place : Place}
    (hlocate : d.locate purpose (Path.join directory name) = .ok place) :
    Fits directory name ∧ place.location = base ++ Path.pieces name := by
  rw [locate] at hlocate
  split at hlocate
  · cases hlocate
  · rename_i hfault
    obtain ⟨links, hwalk⟩ := h.exists_walk hname purpose hpurpose
    obtain ⟨enter, henter⟩ := exists_walkNames d purpose links
    rw [hwalk, henter] at hlocate
    obtain ⟨hshort, hlocation⟩ :=
      location_of_walkNames h.free (fun _ => hname.ne_of_mem) hpurpose hlocate
    exact ⟨⟨hfault, hshort⟩, hlocation⟩

lemma fits_of_find {location : Location} {node : Node}
    (hfind : d.find (Path.join directory name) = .ok (location, node)) :
    Fits directory name ∧ location = base ++ Path.pieces name ∧ d.node? location = some node := by
  obtain ⟨hfault, hwalk⟩ := find_eq_ok_iff.mp hfind
  have hlocate : d.locate .find (Path.join directory name) = .ok (.node location node) := by
    rw [locate, hfault]
    exact hwalk
  obtain ⟨hfits, hlocation⟩ := h.fits_of_locate hname (by decide) hlocate
  exact ⟨hfits, hlocation, (way_of_find hfind).isOn⟩

lemma find_of_fits (hfits : Fits directory name) {node : Node}
    (hnode : d.node? (base ++ Path.pieces name) = some node) :
    d.find (Path.join directory name) = .ok (base ++ Path.pieces name, node) := by
  obtain ⟨links, hwalk⟩ := h.exists_walk hname .find (by decide)
  apply find_eq_ok_iff.mpr
  refine ⟨hfits.1, hwalk.trans ?_⟩
  exact (leads_below h.free (fun _ => hname.ne_of_mem) h.well hfits.2 hnode).walk links

end Hosts

end Disk

end JarReader

import JarReader.Proofs.Disk.Growth
import JarReader.Proofs.Disk.Steps

/-! Without links, a path leads to the files that it led to before directories were made, as long as it climbs
only out of directories that were there before. -/

namespace JarReader.Disk

/-- `names` lead from `location` to the node at `target`, and no link is on the way. -/
inductive Leads (d : Disk) (target : Location) (node : Node) : Location → List String → Prop
  | here : d.node? target = some node → Leads d target node target []
  | stay {location : Location} {name : String} {rest : List String} :
      d.node? location = some .directory → name = "" ∨ name = "." →
      Leads d target node location rest → Leads d target node location (name :: rest)
  | up {location : Location} {rest : List String} : d.node? location = some .directory →
      Leads d target node location.dropLast rest → Leads d target node location (".." :: rest)
  | down {location : Location} {name : String} {found : Node} {rest : List String} :
      d.LeadsDown location name found → (∀ text, found ≠ .link text) →
      Leads d target node (location ++ [name]) rest → Leads d target node location (name :: rest)

section Walk

variable {d : Disk} {target location : Location} {node : Node} {names : List String}
  {enter : Location → String → List String → Except SystemFault Place}

lemma leads_of_walkNames (hfree : d.LinkFree []) {purpose : Purpose} (hpurpose : purpose ≠ .change)
    (h : d.walkNames purpose enter location names = .ok (.node target node)) :
    d.Leads target node location names := by
  induction names generalizing location with
  | nil =>
    obtain ⟨_, hnode, hplace⟩ := walkNames_nil_eq_ok h
    cases hplace
    exact .here hnode
  | cons name rest ih =>
    cases goes_of_walkNames hpurpose h with
    | stay hdirectory hname h => exact .stay hdirectory hname (ih h)
    | up hdirectory hname hrest =>
      subst hname
      exact .up hdirectory (ih hrest)
    | vacant _ _ hplace => cases hplace
    | link hdown => exact absurd hdown.child (hfree _ _ List.nil_prefix)
    | down hdown hlink _ h => exact .down hdown hlink (ih h)

lemma Leads.walkNames (h : d.Leads target node location names) :
    d.walkNames .find enter location names = .ok (.node target node) := by
  induction h with
  | here hnode => rw [Disk.walkNames, hnode]
  | stay hdirectory hname _ ih => exact (walkNames_stay hdirectory hname).trans ih
  | up hdirectory _ ih => exact (walkNames_up hdirectory).trans ih
  | down hdown hlink _ ih => exact (hdown.walkNames_down hlink (by decide) (by simp)).trans ih

lemma leads_of_walk (hfree : d.LinkFree []) {purpose : Purpose} {links : Nat}
    (h : d.walk purpose links location names = .ok (.node target node)) (hpurpose : purpose ≠ .change) :
    d.Leads target node location names := by
  obtain ⟨enter, henter⟩ := exists_walkNames d purpose links
  rw [henter] at h
  exact leads_of_walkNames hfree hpurpose h

lemma Leads.walk (h : d.Leads target node location names) (links : Nat) :
    d.walk .find links location names = .ok (.node target node) := by
  obtain ⟨enter, henter⟩ := exists_walkNames d .find links
  rw [henter]
  exact h.walkNames

end Walk

namespace Leads

variable {d d' : Disk} {target location : Location} {node : Node} {names : List String}

lemma node?_eq (h : d.Leads target node location names) : d.node? target = some node := by
  induction h with
  | here hnode => exact hnode
  | stay _ _ _ ih => exact ih
  | up _ _ ih => exact ih
  | down _ _ _ ih => exact ih

lemma isPrefix (h : d.Leads target node location names) (hup : ".." ∉ names) : location <+: target := by
  induction h with
  | here => exact List.prefix_rfl
  | stay _ _ _ ih => exact ih (List.not_mem_of_not_mem_cons hup)
  | up => exact absurd List.mem_cons_self hup
  | down _ _ _ ih =>
    exact (List.prefix_append _ _).trans (ih (List.not_mem_of_not_mem_cons hup))

lemma kept (hkept : ∀ location node, d.node? location = some node → d'.node? location = some node)
    (h : d.Leads target node location names) : d'.Leads target node location names := by
  induction h with
  | here hnode => exact .here (hkept _ _ hnode)
  | stay hdirectory hname _ ih => exact .stay (hkept _ _ hdirectory) hname ih
  | up hdirectory _ ih => exact .up (hkept _ _ hdirectory) ih
  | down hdown hlink _ ih =>
    exact .down (hdown.kept hkept) hlink ih

lemma exists_node (h : d.Leads target node location names) : ∃ found, d.node? location = some found := by
  cases h with
  | here hnode => exact ⟨_, hnode⟩
  | stay hdirectory => exact ⟨_, hdirectory⟩
  | up hdirectory => exact ⟨_, hdirectory⟩
  | down hdown => exact ⟨_, hdown.directory⟩

end Leads

def BackedFrom (d : Disk) (location : Location) (names : List String) : Prop :=
  ∀ front, front ++ [".."] <+: names → ∃ target, d.Leads target .directory location front

section Backed

variable {d d' : Disk} {location : Location} {name : String} {rest : List String}

lemma BackedFrom.stay (h : d.BackedFrom location (name :: rest)) (hname : name = "" ∨ name = ".") :
    d.BackedFrom location rest := by
  intro front hfront
  obtain ⟨target, hleads⟩ := h (name :: front) (List.cons_prefix_cons.mpr ⟨rfl, hfront⟩)
  cases hleads with
  | stay _ _ hrest => exact ⟨target, hrest⟩
  | up => simp at hname
  | down hdown => exact absurd hname (not_or.mpr ⟨hdown.ne_empty, hdown.ne_here⟩)

lemma BackedFrom.up (h : d.BackedFrom location (".." :: rest)) : d.BackedFrom location.dropLast rest := by
  intro front hfront
  obtain ⟨target, hleads⟩ := h (".." :: front) (List.cons_prefix_cons.mpr ⟨rfl, hfront⟩)
  cases hleads with
  | stay _ hname => simp at hname
  | up _ hrest => exact ⟨target, hrest⟩
  | down hdown => exact absurd rfl hdown.ne_up

lemma BackedFrom.down {found : Node} (h : d.BackedFrom location (name :: rest))
    (hdown : d'.LeadsDown location name found) : d.BackedFrom (location ++ [name]) rest := by
  intro front hfront
  obtain ⟨target, hleads⟩ := h (name :: front) (List.cons_prefix_cons.mpr ⟨rfl, hfront⟩)
  cases hleads with
  | stay _ hname => exact absurd hname (not_or.mpr ⟨hdown.ne_empty, hdown.ne_here⟩)
  | up => exact absurd rfl hdown.ne_up
  | down _ _ hrest => exact ⟨target, hrest⟩

lemma BackedFrom.not_mem (h : d.BackedFrom location rest) (hnone : d.node? location = none) :
    ".." ∉ rest := by
  intro hmem
  obtain ⟨front, back, rfl⟩ := List.append_of_mem hmem
  obtain ⟨_, hleads⟩ := h front ⟨back, List.append_cons front ".." back ▸ rfl⟩
  obtain ⟨_, hnode⟩ := hleads.exists_node
  cases hnone.symm.trans hnode

end Backed

section Made

variable {d d' : Disk} (hwell : d.WellFormed) {inside : Location → Prop}
  (hmade : Grown inside (fun _ => False) d d')
include hwell hmade

lemma Leads.of_made {target location : Location} {id : FileId} {names : List String}
    (hstart : ∃ node, d.node? location = some node) (hback : d.BackedFrom location names)
    (h : d'.Leads target (.file id) location names) : d.Leads target (.file id) location names := by
  have hfile {location : Location} (h : d'.node? location = some (.file id)) :
      d.node? location = some (.file id) :=
    (hmade.file_of_node? h).resolve_right not_false
  have hold {location : Location} {found : Node} (hstart : ∃ node, d.node? location = some node)
      (h : d'.node? location = some found) : d.node? location = some found := by
    obtain ⟨node, hnode⟩ := hstart
    rw [hnode, ← hmade.kept _ _ hnode, h]
  induction h with
  | here hnode => exact .here (hfile hnode)
  | stay hdirectory hname _ ih => exact .stay (hold hstart hdirectory) hname (ih hstart (hback.stay hname))
  | up hdirectory _ ih =>
    have hdirectory := hold hstart hdirectory
    exact .up hdirectory (ih ⟨_, hwell.dropLast hdirectory⟩ hback.up)
  | @down location name found rest hdown hlink hrest ih =>
    have hback := hback.down hdown
    cases hchild : d.node? (location ++ [name]) with
    | some node =>
      have hdown := { hdown with
        directory := hold hstart hdown.directory
        child := hold ⟨_, hchild⟩ hdown.child }
      exact .down hdown hlink (ih ⟨_, hchild⟩ hback)
    | none =>
      -- a directory that was made: what is below it was made too, and is no file
      obtain ⟨more, rfl⟩ := hrest.isPrefix (hback.not_mem hchild)
      have htarget := hfile hrest.node?_eq
      by_cases hmore : more = []
      · rw [hmore, List.append_nil, hchild] at htarget
        cases htarget
      · cases hchild.symm.trans (hwell.prefix_directory hmore htarget)

lemma pathExists_of_made {path : String} (hfree : d.LinkFree [])
    (hback : d.BackedFrom (d.startOf path) (steps path)) {target : Location} {id : FileId}
    (h : d'.locate .make path = .ok (.node target (.file id))) : d.pathExists path = true := by
  have hstart : ∃ node, d.node? (d.startOf path) = some node := by
    rw [startOf]
    split
    · exact ⟨_, rfl⟩
    · exact ⟨_, hwell.home⟩
  rw [locate] at h
  split at h
  · cases h
  · rename_i hfault
    have hleads := leads_of_walk (hmade.linkFree hfree) h (by decide)
    rw [startOf, hmade.home, ← startOf] at hleads
    have hwalk := (hleads.of_made hwell hmade hstart hback).walk maxLinks
    apply pathExists_iff.mpr
    exact ⟨_, _, find_eq_ok_iff.mpr ⟨hfault, hwalk⟩⟩

end Made

/-- What `path` climbs out of is there. -/
def Backed (d : Disk) (path : String) : Prop :=
  ∀ front, front ++ [".."] <+: steps path →
    ∃ location, d.walk .find maxLinks (d.startOf path) front = .ok (.node location .directory)

lemma Backed.grown {d d' : Disk} {inside : Location → Prop} {touched : FileId → Prop} {path : String}
    (h : d.Backed path) (hfree : d.LinkFree []) (hgrown : Grown inside touched d d') :
    d'.BackedFrom (d'.startOf path) (steps path) := by
  intro front hfront
  obtain ⟨location, hwalk⟩ := h front hfront
  have hleads := (leads_of_walk hfree hwalk (by decide)).kept hgrown.kept
  rw [startOf, ← hgrown.home, ← startOf] at hleads
  exact ⟨location, hleads⟩

end JarReader.Disk

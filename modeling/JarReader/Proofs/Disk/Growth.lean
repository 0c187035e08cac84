import JarReader.Proofs.Disk.Change
import Mathlib.Data.List.Basic
import Mathlib.Data.List.Induction

namespace JarReader.Disk

variable {d d' d'' : Disk}

structure WellFormed (d : Disk) : Prop where
  parent : ∀ location name node, d.node? (location ++ [name]) = some node →
    d.node? location = some .directory
  known : ∀ location id, d.node? location = some (.file id) → id.index < d.files.size
  home : d.node? d.home = some .directory

lemma wellFormed_empty (home : Location) : (empty home).WellFormed where
  parent := fun location name _ h => by
    obtain ⟨hbegins, _⟩ := node?_empty_eq_some_iff.mp h
    exact node?_empty_eq_some_iff.mpr ⟨(List.prefix_append location [name]).trans hbegins, rfl⟩
  known := fun _ _ h => by cases (node?_empty_eq_some_iff.mp h).2
  home := node?_empty_eq_some_iff.mpr ⟨List.prefix_rfl, rfl⟩

namespace WellFormed

lemma prefix_directory (h : d.WellFormed) {location rest : Location} {node : Node}
    (hne : rest ≠ []) (hnode : d.node? (location ++ rest) = some node) :
    d.node? location = some .directory := by
  induction rest using List.reverseRecOn generalizing node with
  | nil => contradiction
  | append_singleton rest name ih =>
    rw [← List.append_assoc] at hnode
    have hparent := h.parent _ _ _ hnode
    by_cases hrest : rest = []
    · rwa [hrest, List.append_nil] at hparent
    · exact ih hrest hparent

lemma dropLast (h : d.WellFormed) {location : Location} {node : Node}
    (hnode : d.node? location = some node) : d.node? location.dropLast = some .directory := by
  rcases List.eq_nil_or_concat' location with rfl | ⟨parent, name, rfl⟩
  · rfl
  · rw [List.dropLast_concat]
    exact h.parent _ _ _ hnode

lemma modify (h : d.WellFormed) (id : FileId) (f : FileData → FileData) :
    ({ d with files := d.files.modify id.index f } : Disk).WellFormed where
  parent := h.parent
  known := fun location id' hid => by
    rw [Array.size_modify]
    exact h.known location id' hid
  home := h.home

lemma setNode (h : d.WellFormed) {parent : Location} {name : String} {node : Node}
    (hparent : d.node? parent = some .directory) (hnone : d.node? (parent ++ [name]) = none)
    (hknown : ∀ id, node = .file id → id.index < d.files.size) :
    (d.setNode (parent ++ [name]) node).WellFormed := by
  have hne : parent ++ [name] ≠ [] := List.concat_ne_nil name parent
  have hkept {location : Location} {found : Node} (hf : d.node? location = some found) :=
    node?_setNode_of_vacant hnone node hf
  constructor
  · intro location last found hf
    rw [node?_setNode hne] at hf
    split at hf
    · rename_i he
      obtain ⟨rfl, _⟩ := List.append_inj' he rfl
      exact hkept hparent
    · exact hkept (h.parent _ _ _ hf)
  · intro location id hid
    rw [node?_setNode hne] at hid
    split at hid
    · exact hknown id (Option.some.inj hid)
    · exact h.known location id hid
  · exact hkept h.home

lemma makeDirectory {path : String} (h : d.WellFormed) (hmake : d.makeDirectory path = .ok d') :
    d'.WellFormed := by
  obtain ⟨parent, name, hlocate, rfl⟩ := makeDirectory_eq_ok hmake
  obtain ⟨hparent, hnone⟩ := (way_of_locate hlocate (.inr ⟨_, _, rfl⟩)).isOn
  exact h.setNode hparent hnone fun id he => by cases he

lemma makes {paths : List String} (h : d.WellFormed)
    (hmakes : Relation.ReflTransGen (Makes paths) d d') : d'.WellFormed := by
  induction hmakes with
  | refl => exact h
  | tail _ hmakes ih =>
    obtain ⟨_, _, hmake⟩ := hmakes
    exact ih.makeDirectory hmake

lemma create {path : String} {id : FileId} (h : d.WellFormed)
    (hcreate : d.create path = .ok (id, d')) : d'.WellFormed := by
  rcases create_eq_ok hcreate with ⟨_, _, rfl⟩ | ⟨parent, name, hlocate, rfl, rfl⟩
  · exact h.modify id _
  obtain ⟨hparent, hnone⟩ := (way_of_locate hlocate (.inr ⟨_, _, rfl⟩)).isOn
  have hpush : ({ d with files := d.files.push ⟨.empty, 0⟩ } : Disk).WellFormed := {
    parent := h.parent
    known := fun location id hid => by
      rw [Array.size_push]
      exact Nat.lt_succ_of_lt (h.known location id hid)
    home := h.home }
  refine hpush.setNode hparent hnone fun id he => ?_
  cases he
  simp

lemma writeFile {path : String} {bytes : ByteArray} {time : Int} (h : d.WellFormed)
    (hwrite : d.writeFile path bytes time = .ok d') : d'.WellFormed := by
  rw [Disk.writeFile] at hwrite
  split at hwrite
  · cases hwrite
  · cases hwrite
    exact ((h.create ‹_›).modify _ _).modify _ _

end WellFormed

lemma exists_of_bind {first : Except SystemFault Disk} {next : Disk → Except SystemFault Disk}
    (h : (first >>= next) = .ok d') : ∃ d, first = .ok d ∧ next d = .ok d' := by
  cases first with
  | error fault => cases h
  | ok d => exact ⟨d, rfl, h⟩

/-- From `d` to `d'`, nodes came only `inside`, as directories and `touched` files, and only the bytes of
`touched` files changed. -/
structure Grown (inside : Location → Prop) (touched : FileId → Prop) (d d' : Disk) : Prop where
  home : d'.home = d.home
  size : d.files.size ≤ d'.files.size
  kept : ∀ location node, d.node? location = some node → d'.node? location = some node
  fresh : ∀ location node, d'.node? location = some node → d.node? location = some node ∨
    inside location ∧ (node = .directory ∨ ∃ id, touched id ∧ node = .file id)
  files : ∀ id, d'.file? id = d.file? id ∨ touched id

namespace Grown

variable {inside : Location → Prop} {touched : FileId → Prop}

lemma refl (d : Disk) : Grown inside touched d d :=
  ⟨rfl, Nat.le_refl _, fun _ _ hnode => hnode, fun _ _ => .inl, fun _ => .inl rfl⟩

lemma trans (h : Grown inside touched d d') (h' : Grown inside touched d' d'') :
    Grown inside touched d d'' where
  home := h'.home.trans h.home
  size := Nat.le_trans h.size h'.size
  kept := fun location node hnode => h'.kept location node (h.kept location node hnode)
  fresh := fun location node hnode => (h'.fresh location node hnode).elim (h.fresh location node) .inr
  files := fun id => by
    rcases h'.files id with he | htouched
    · rw [he]
      exact h.files id
    · exact .inr htouched

lemma file_of_node? (h : Grown inside touched d d') {location : Location} {id : FileId}
    (hid : d'.node? location = some (.file id)) :
    d.node? location = some (.file id) ∨ touched id := by
  rcases h.fresh _ _ hid with hnode | ⟨_, hnode | ⟨_, htouched, hnode⟩⟩
  · exact .inl hnode
  · cases hnode
  · cases hnode
    exact .inr htouched

lemma mono {touched' : FileId → Prop} (h : Grown inside touched d d')
    (himp : ∀ id, touched id → touched' id) : Grown inside touched' d d' where
  home := h.home
  size := h.size
  kept := h.kept
  fresh := fun location node hnode => (h.fresh location node hnode).imp_right fun ⟨hinside, he⟩ =>
    ⟨hinside, he.imp_right fun ⟨id, htouched, he⟩ => ⟨id, himp id htouched, he⟩⟩
  files := fun id => (h.files id).imp_right (himp id)

lemma modify {id : FileId} (h : touched id) (f : FileData → FileData) :
    Grown inside touched d { d with files := d.files.modify id.index f } where
  home := rfl
  size := Nat.le_of_eq Array.size_modify.symm
  kept := fun _ _ hnode => hnode
  fresh := fun _ _ => .inl
  files := fun other => by
    by_cases hother : other = id
    · exact .inr (hother ▸ h)
    · exact .inl (file?_modify hother)

lemma push (h : touched ⟨d.files.size⟩) (data : FileData) :
    Grown inside touched d { d with files := d.files.push data } where
  home := rfl
  size := by simp
  kept := fun _ _ hnode => hnode
  fresh := fun _ _ => .inl
  files := fun other => by
    by_cases hother : other = ⟨d.files.size⟩
    · exact .inr (hother ▸ h)
    · exact .inl (file?_push hother)

lemma setNode {location : Location} {node : Node} (hnone : d.node? location = none)
    (hinside : inside location) (hnode : node = .directory ∨ ∃ id, touched id ∧ node = .file id) :
    Grown inside touched d (d.setNode location node) := by
  have hne : location ≠ [] := by
    rintro rfl
    cases hnone
  refine ⟨rfl, Nat.le_refl _, fun l found hl => node?_setNode_of_vacant hnone node hl,
    fun l found hl => ?_, fun _ => .inl rfl⟩
  rw [node?_setNode hne] at hl
  split at hl
  · cases hl
    exact .inr ⟨‹l = location› ▸ hinside, hnode⟩
  · exact .inl hl

lemma makeDirectory {path : String} (hmake : d.makeDirectory path = .ok d')
    (hinside : ∀ parent name, d.locate .change path = .ok (.vacant parent name) →
      inside (parent ++ [name])) : Grown inside touched d d' := by
  obtain ⟨parent, name, hlocate, rfl⟩ := makeDirectory_eq_ok hmake
  obtain ⟨_, hnone⟩ := (way_of_locate hlocate (.inr ⟨_, _, rfl⟩)).isOn
  exact setNode hnone (hinside _ _ hlocate) (.inl rfl)

lemma makes {paths : List String} (h : Relation.ReflTransGen (Makes paths) d d')
    (hinside : ∀ path ∈ paths, ∀ d', Grown inside touched d d' → ∀ parent name,
      d'.locate .change path = .ok (.vacant parent name) → inside (parent ++ [name])) :
    Grown inside touched d d' := by
  induction h with
  | refl => exact refl d
  | tail _ hmakes ih =>
    obtain ⟨path, hpath, hmake⟩ := hmakes
    exact ih.trans (makeDirectory hmake (hinside path hpath _ ih))

lemma create {path : String} {id : FileId} (hcreate : d.create path = .ok (id, d'))
    (hfile : ∀ location id, d.locate .make path = .ok (.node location (.file id)) → touched id)
    (hvacant : ∀ parent name, d.locate .make path = .ok (.vacant parent name) →
      inside (parent ++ [name]) ∧ touched ⟨d.files.size⟩) :
    Grown inside touched d d' ∧ touched id := by
  rcases create_eq_ok hcreate with ⟨location, hlocate, rfl⟩ | ⟨parent, name, hlocate, rfl, rfl⟩
  · have htouched := hfile _ _ hlocate
    exact ⟨modify htouched _, htouched⟩
  · obtain ⟨_, hnone⟩ := (way_of_locate hlocate (.inr ⟨_, _, rfl⟩)).isOn
    obtain ⟨hinside, htouched⟩ := hvacant _ _ hlocate
    refine ⟨(push htouched ⟨.empty, 0⟩).trans ?_, htouched⟩
    exact setNode hnone hinside (.inr ⟨_, htouched, rfl⟩)

lemma linkFree (h : Grown inside touched d d') {base : Location} (hfree : d.LinkFree base) :
    d'.LinkFree base := by
  intro location target hbase hlink
  rcases h.fresh _ _ hlink with he | ⟨_, he | ⟨_, _, he⟩⟩
  · exact hfree location target hbase he
  · cases he
  · cases he

end Grown

lemma grown_of_makes {paths : List String} (h : Relation.ReflTransGen (Makes paths) d d') :
    Grown (fun _ => True) (fun _ => False) d d' :=
  Grown.makes h fun _ _ _ _ _ _ _ => trivial

end JarReader.Disk

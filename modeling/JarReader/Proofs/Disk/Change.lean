import JarReader.Disk.Change
import JarReader.Proofs.Disk.Way
import Mathlib.Logic.Relation

namespace JarReader.Disk

variable {d d' d'' : Disk}

lemma node?_setNode {location : Location} (hne : location ≠ []) (node : Node) (l : Location) :
    (d.setNode location node).node? l = if l = location then some node else d.node? l := by
  have hfilter (nodes : List (Location × Node)) (h : l ≠ location) :
      (nodes.filter fun entry => entry.1 ≠ location).lookup l = nodes.lookup l := by
    induction nodes with
    | nil => rfl
    | cons entry nodes ih =>
      rw [List.filter_cons]
      split
      · rw [List.lookup_cons, List.lookup_cons, ih]
      · rename_i hentry
        have hl : (l == entry.1) = false := by
          rw [beq_eq_false_iff_ne]
          rintro rfl
          exact hentry (by simpa using h)
        rw [ih, List.lookup_cons, hl]
  by_cases hl : l = location
  · subst hl
    have hnone : (d.nodes.filter fun entry => entry.1 ≠ l).lookup l = none := by
      rw [List.lookup_eq_none_iff]
      intro entry hentry
      rw [bne_iff_ne]
      exact (decide_eq_true_eq.mp (List.mem_filter.mp hentry).2).symm
    rw [if_pos rfl, node?, if_neg hne, setNode, List.lookup_append, hnone]
    simp
  · rw [if_neg hl, node?, node?]
    split
    · rfl
    · have hlast : [(location, node)].lookup l = none := by
        rw [List.lookup_eq_none_iff]
        simpa using hl
      rw [setNode, List.lookup_append, hfilter _ hl, hlast, Option.or_none]

lemma node?_setNode_of_vacant {location l : Location} {found : Node} (hnone : d.node? location = none)
    (node : Node) (h : d.node? l = some found) : (d.setNode location node).node? l = some found := by
  have hne : location ≠ [] := by
    rintro rfl
    cases hnone
  have hother : l ≠ location := by
    rintro rfl
    cases hnone.symm.trans h
  rw [node?_setNode hne, if_neg hother, h]

lemma mem_nodes_of_node? {location : Location} {node : Node} (hne : location ≠ [])
    (h : d.node? location = some node) : (location, node) ∈ d.nodes := by
  rw [node?, if_neg hne] at h
  obtain ⟨before, after, hnodes, _⟩ := List.lookup_eq_some_iff.mp h
  rw [hnodes]
  exact List.mem_append_right before List.mem_cons_self

lemma linkFree_of_nodes (h : (d.nodes.all fun entry => entry.2 matches .directory | .file _) = true)
    (base : Location) : d.LinkFree base := by
  intro location target _ hlink
  have hne : location ≠ [] := by
    rintro rfl
    cases hlink
  exact absurd (List.all_eq_true.mp h _ (mem_nodes_of_node? hne hlink)) Bool.false_ne_true

lemma node?_empty_eq_some_iff {home location : Location} {node : Node} :
    (empty home).node? location = some node ↔ location <+: home ∧ node = .directory := by
  by_cases hne : location = []
  · subst hne
    rw [node?, if_pos rfl, Option.some.injEq, and_iff_right List.nil_prefix, eq_comm]
  have hforward {found : Node} (h : (empty home).node? location = some found) :
      location <+: home ∧ found = .directory := by
    obtain ⟨n, _, he⟩ := List.mem_map.mp (mem_nodes_of_node? hne h)
    obtain ⟨rfl, rfl⟩ := Prod.mk.inj he
    exact ⟨List.take_prefix (n + 1) home, rfl⟩
  refine ⟨hforward, fun ⟨hbegins, hnode⟩ => ?_⟩
  cases h : (empty home).node? location with
  | some found => rw [(hforward h).2, hnode]
  | none =>
    rw [node?, if_neg hne, List.lookup_eq_none_iff] at h
    obtain ⟨n, hn⟩ := Nat.exists_eq_succ_of_ne_zero fun h => hne (List.length_eq_zero_iff.mp h)
    have hmem : (location, Node.directory) ∈ (empty home).nodes := by
      refine List.mem_map.mpr ⟨n, List.mem_range.mpr ?_, ?_⟩
      · exact Nat.lt_of_lt_of_le (hn ▸ Nat.lt_succ_self n) hbegins.length_le
      · rw [← Nat.succ_eq_add_one, ← hn, ← List.prefix_iff_eq_take.mp hbegins]
    simpa using h _ hmem

lemma file?_modify {id : FileId} {f : FileData → FileData} {other : FileId} (h : other ≠ id) :
    ({ d with files := d.files.modify id.index f } : Disk).file? other = d.file? other := by
  have hindex : id.index ≠ other.index := fun he => h (by cases id; cases other; cases he; rfl)
  rw [file?, Array.getElem?_modify, if_neg hindex, file?]

lemma file?_push {data : FileData} {id : FileId} (h : id ≠ ⟨d.files.size⟩) :
    ({ d with files := d.files.push data } : Disk).file? id = d.file? id := by
  have hindex : id.index ≠ d.files.size := fun he => h (by cases id; cases he; rfl)
  rw [file?, Array.getElem?_push, if_neg hindex, file?]

lemma fileAt?_eq_some_iff {location : Location} {bytes : ByteArray} :
    d.fileAt? location = some bytes ↔ ∃ id, d.node? location = some (.file id) ∧ d.content id = bytes := by
  rw [fileAt?]
  split
  · rename_i id hid
    simp [hid]
  · rename_i hnone
    refine ⟨fun he => absurd he (Option.some_ne_none bytes).symm, fun ⟨id, hid, _⟩ => ?_⟩
    exact (hnone id hid).elim

lemma content_eq_of_file? {id : FileId} (h : d'.file? id = d.file? id) : d'.content id = d.content id := by
  rw [content, content, h]

section Inversion

variable {path : String}

lemma makeDirectory_eq_ok (h : d.makeDirectory path = .ok d') :
    ∃ parent name, d.locate .change path = .ok (.vacant parent name) ∧
      d' = d.setNode (parent ++ [name]) .directory := by
  rw [makeDirectory] at h
  split at h
  · cases h
  · rename_i parent name hvacancy
    refine ⟨parent, name, ?_, (Except.ok.inj h).symm⟩
    rw [vacancy] at hvacancy
    split at hvacancy
    · cases hvacancy
    · cases hvacancy
    · split at hvacancy
      · cases hvacancy
      · cases hvacancy
        assumption

lemma create_eq_ok {id : FileId} (h : d.create path = .ok (id, d')) :
    (∃ location, d.locate .make path = .ok (.node location (.file id)) ∧
      d' = d.setBytes id .empty) ∨
    ∃ parent name, d.locate .make path = .ok (.vacant parent name) ∧ id = ⟨d.files.size⟩ ∧
      d' = { d with files := d.files.push ⟨.empty, 0⟩ }.setNode (parent ++ [name]) (.file id) := by
  rw [create] at h
  split at h
  · cases h
  · cases h
    exact .inl ⟨_, ‹_›, rfl⟩
  · cases h
  · cases h
    exact .inr ⟨_, _, ‹_›, rfl, rfl⟩

def Makes (paths : List String) (d d' : Disk) : Prop :=
  ∃ path ∈ paths, d.makeDirectory path = .ok d'

lemma makes_makeFirst (d : Disk) (paths : List String) :
    Relation.ReflTransGen (Makes paths) d (d.makeFirst paths).2 := by
  have habove {path : String} {above : List String} {d₁ d₂ : Disk}
      (h : Relation.ReflTransGen (Makes above) d₁ d₂) :
      Relation.ReflTransGen (Makes (path :: above)) d₁ d₂ :=
    Relation.ReflTransGen.mono (fun _ _ ⟨p, hp, h⟩ => ⟨p, List.mem_cons_of_mem path hp, h⟩) _ _ h
  fun_induction makeFirst d paths with
  | case1 => exact .refl
  | case2 => exact .refl
  | case3 path _ _ _ h => exact .single ⟨path, List.mem_cons_self, h⟩
  | case4 _ _ _ _ _ _ hfirst ih =>
    rw [hfirst] at ih
    exact habove ih
  | case5 path _ _ _ _ hfirst _ hmade ih =>
    rw [hfirst] at ih
    exact (habove ih).tail ⟨path, List.mem_cons_self, hmade⟩
  | case6 _ _ _ _ _ hfirst _ _ ih =>
    rw [hfirst] at ih
    exact habove ih
  | case7 => exact .refl

end Inversion

end JarReader.Disk

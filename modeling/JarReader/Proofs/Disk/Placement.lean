import JarReader.Proofs.Disk.Below

namespace JarReader.Disk

variable {d d' d₁ d₂ : Disk}

lemma content_modify {id : FileId} (h : id.index < d.files.size) (f : FileData → FileData) :
    ∃ data, d.file? id = some data ∧
      ({ d with files := d.files.modify id.index f } : Disk).content id = (f data).bytes := by
  have hdata : d.file? id = some d.files[id.index] := Array.getElem?_eq_getElem h
  have hfile : ({ d with files := d.files.modify id.index f } : Disk).file? id =
      some (f d.files[id.index]) := by
    rw [file?, Array.getElem?_modify, if_pos rfl, ← file?, hdata, Option.map_some]
  refine ⟨_, hdata, ?_⟩
  rw [content, hfile]

lemma content_append {id : FileId} (h : id.index < d.files.size) (bytes : ByteArray) :
    (d.append id bytes).content id = d.content id ++ bytes := by
  obtain ⟨data, hdata, hcontent⟩ :=
    content_modify h fun file => { file with bytes := file.bytes ++ bytes }
  refine hcontent.trans ?_
  simp only [content, hdata]

lemma content_setBytes {id : FileId} (h : id.index < d.files.size) (bytes : ByteArray) :
    (d.setBytes id bytes).content id = bytes := by
  obtain ⟨data, _, hcontent⟩ := content_modify h fun file => { file with bytes := bytes }
  exact hcontent

namespace Grown

variable {inside : Location → Prop} {touched : FileId → Prop}

lemma fileAt?_eq (h : Grown inside touched d d') {location : Location}
    (hlocation : ∀ id, d'.node? location = some (.file id) → ¬ touched id) :
    d'.fileAt? location = d.fileAt? location := by
  apply Option.ext
  intro bytes
  rw [fileAt?_eq_some_iff, fileAt?_eq_some_iff]
  constructor
  · rintro ⟨id, hid, hcontent⟩
    have huntouched := hlocation id hid
    refine ⟨id, (h.file_of_node? hid).resolve_right huntouched, ?_⟩
    exact (content_eq_of_file? ((h.files id).resolve_right huntouched)).symm.trans hcontent
  · rintro ⟨id, hid, hcontent⟩
    have hid := h.kept _ _ hid
    refine ⟨id, hid, ?_⟩
    exact (content_eq_of_file? ((h.files id).resolve_right (hlocation id hid))).trans hcontent

end Grown

def GrownBy (id : FileId) (d d' : Disk) : Prop := Grown (fun _ => True) (fun other => other = id) d d'

lemma grownBy_modify (d : Disk) (id : FileId) (f : FileData → FileData) :
    GrownBy id d { d with files := d.files.modify id.index f } :=
  Grown.modify (by exact rfl) f

/-- From `d` to `d'`, the files are the same but for one at `location`, which holds `bytes`. -/
structure Placed (location : Location) (bytes : ByteArray) (d d' : Disk) : Prop where
  kept : ∀ l node, d.node? l = some node → d'.node? l = some node
  here : d'.fileAt? location = some bytes
  elsewhere : ∀ l, l ≠ location → d'.fileAt? l = d.fileAt? l

/-- What is there when the file `id` has been made, or made empty, at `location`. -/
structure Created (location : Location) (id : FileId) (d d' : Disk) : Prop where
  grown : GrownBy id d d'
  well : d'.WellFormed
  only : ∀ l, d'.node? l = some (.file id) ↔ l = location
  old : id.index < d.files.size → d.node? location = some (.file id)
  empty : d'.content id = .empty

/-- From `d` to `d'`, no file got a further name. -/
structure NamesKept (d d' : Disk) : Prop where
  new : ∀ l id, d'.node? l = some (.file id) → d.node? l = some (.file id) ∨ d'.OneName id
  old : ∀ id, d.OneName id → d'.OneName id

namespace NamesKept

lemma refl (d : Disk) : NamesKept d d := ⟨fun _ _ => .inl, fun _ => id⟩

lemma trans (h : NamesKept d d') (h' : NamesKept d' d₁) : NamesKept d d₁ where
  new := fun l id hl => by
    rcases h'.new l id hl with hl | hone
    · exact (h.new l id hl).imp_right (h'.old id)
    · exact .inr hone
  old := fun id hone => h'.old id (h.old id hone)

lemma oneName (h : NamesKept d d') {l : Location} {id : FileId}
    (hone : d.node? l = some (.file id) → d.OneName id) (hl : d'.node? l = some (.file id)) :
    d'.OneName id :=
  (h.new l id hl).elim (fun hold => h.old id (hone hold)) fun hone => hone

lemma append (d : Disk) (id : FileId) (bytes : ByteArray) : NamesKept d (d.append id bytes) :=
  ⟨fun _ _ => .inl, fun _ hone => hone⟩

lemma of_grown {inside : Location → Prop} (h : Grown inside (fun _ => False) d d') : NamesKept d d' := by
  have hold {l : Location} {id : FileId} (hl : d'.node? l = some (.file id)) :
      d.node? l = some (.file id) :=
    (h.file_of_node? hl).resolve_right not_false
  exact ⟨fun _ _ hl => .inl (hold hl), fun _ hone l l' hl hl' => hone l l' (hold hl) (hold hl')⟩

end NamesKept

lemma Created.namesKept {location : Location} {id : FileId} (h : Created location id d d') :
    NamesKept d d' := by
  have hone : d'.OneName id := fun l l' hl hl' => ((h.only l').mp hl').trans ((h.only l).mp hl).symm
  have hold {l : Location} {other : FileId} (hother : other ≠ id)
      (hl : d'.node? l = some (.file other)) : d.node? l = some (.file other) :=
    (h.grown.file_of_node? hl).resolve_right hother
  constructor
  · intro l other hl
    by_cases hother : other = id
    · exact .inr (hother ▸ hone)
    · exact .inl (hold hother hl)
  · intro other hbefore
    by_cases hother : other = id
    · exact hother ▸ hone
    · exact fun l l' hl hl' => hbefore l l' (hold hother hl) (hold hother hl')

lemma Created.append {location : Location} {id : FileId} (h : Created location id d d')
    (bytes : ByteArray) : Placed location bytes d (d'.append id bytes) := by
  have hid : d'.node? location = some (.file id) := (h.only location).mpr rfl
  have hcontent := content_append (h.well.known _ _ hid) bytes
  rw [h.empty, ByteArray.empty_append] at hcontent
  have hgrown : GrownBy id d (d'.append id bytes) := h.grown.trans (grownBy_modify d' id _)
  refine ⟨hgrown.kept, fileAt?_eq_some_iff.mpr ⟨id, hid, hcontent⟩, fun l hl => ?_⟩
  apply hgrown.fileAt?_eq
  rintro _ hother rfl
  exact hl ((h.only l).mp hother)

namespace Hosts

variable {directory name : String} {base : Location} {id : FileId} (h : d.Hosts directory base)
include h

lemma grown {inside : Location → Prop} {touched : FileId → Prop} (hgrown : Grown inside touched d d')
    (hwell : d'.WellFormed) : d'.Hosts directory base where
  found := find_kept hgrown.home hgrown.kept h.found
  free := hgrown.linkFree h.free
  well := hwell

lemma makes {paths : List String} (hmakes : Relation.ReflTransGen (Makes paths) d d') :
    Grown (fun _ => True) (fun _ => False) d d' ∧ d'.Hosts directory base := by
  have hgrown := grown_of_makes hmakes
  exact ⟨hgrown, h.grown hgrown (h.well.makes hmakes)⟩

variable (hname : Path.Clean name)
include hname

lemma created (hcreate : d.create (Path.join directory name) = .ok (id, d'))
    (hone : Fits directory name → ∀ id, d.node? (base ++ Path.pieces name) = some (.file id) →
      d.OneName id) :
    Fits directory name ∧ Created (base ++ Path.pieces name) id d d' := by
  have hwell := h.well.create hcreate
  rcases create_eq_ok hcreate with ⟨location, hlocate, rfl⟩ | ⟨parent, last, hlocate, rfl, rfl⟩
  · obtain ⟨hfits, rfl⟩ := h.fits_of_locate hname (by decide) hlocate
    have hid : d.node? (base ++ Path.pieces name) = some (.file id) :=
      (way_of_locate hlocate (.inl (by decide))).isOn
    refine ⟨hfits, grownBy_modify d id _, hwell, fun l => ⟨fun hl => ?_, ?_⟩, fun _ => hid, ?_⟩
    · exact hone hfits id hid _ _ hid hl
    · rintro rfl
      exact hid
    · exact content_setBytes (h.well.known _ _ hid) .empty
  · obtain ⟨hfits, hlocation⟩ := h.fits_of_locate hname (by decide) hlocate
    obtain ⟨_, hnone⟩ := (way_of_locate hlocate (.inl (by decide))).isOn
    have hlocation : parent ++ [last] = base ++ Path.pieces name := hlocation
    rw [hlocation] at hnone hwell ⊢
    have hnew (l : Location) : d.node? l ≠ some (.file ⟨d.files.size⟩) := fun hl =>
      Nat.lt_irrefl _ (h.well.known _ _ hl)
    have hgrown : GrownBy ⟨d.files.size⟩ d ({ d with files := d.files.push ⟨.empty, 0⟩ }.setNode
        (base ++ Path.pieces name) (.file ⟨d.files.size⟩)) := by
      refine Grown.trans (Grown.push (by exact rfl) ⟨.empty, 0⟩) ?_
      exact Grown.setNode hnone trivial (.inr ⟨_, rfl, rfl⟩)
    refine ⟨hfits, hgrown, hwell, fun l => ?_, fun hold => absurd hold (Nat.lt_irrefl _), ?_⟩
    · have hne : base ++ Path.pieces name ≠ [] := by
        rw [← hlocation]
        exact List.concat_ne_nil last parent
      rw [node?_setNode hne]
      split
      · exact ⟨fun _ => ‹_›, fun _ => rfl⟩
      · exact ⟨fun hl => absurd hl (hnew l), fun hl => absurd hl ‹_›⟩
    · simp [setNode, content, file?]

lemma placed {paths : List String} (hmakes : Relation.ReflTransGen (Makes paths) d d₁)
    (hcreate : d₁.create (Path.join directory name) = .ok (id, d₂)) (bytes : ByteArray)
    (hone : Fits directory name → ∀ id, d.node? (base ++ Path.pieces name) = some (.file id) →
      d.OneName id) :
    Fits directory name ∧ (id.index < d.files.size → d.node? (base ++ Path.pieces name) = some (.file id)) ∧
      Placed (base ++ Path.pieces name) bytes d (d₂.append id bytes) ∧
      (d₂.append id bytes).Hosts directory base ∧
      GrownBy id d (d₂.append id bytes) ∧ NamesKept d (d₂.append id bytes) := by
  obtain ⟨hmade, hosts⟩ := h.makes hmakes
  have hnames := NamesKept.of_grown hmade
  obtain ⟨hfits, hcreated⟩ :=
    hosts.created hname hcreate fun hfits other => hnames.oneName (hone hfits other)
  have hplaced := hcreated.append bytes
  have hgrown : GrownBy id d₁ (d₂.append id bytes) := hcreated.grown.trans (grownBy_modify d₂ id _)
  refine ⟨hfits, fun hid => ?_, ⟨fun l node hl => ?_, hplaced.here, fun l hl => ?_⟩, ?_, ?_, ?_⟩
  · have hold := hcreated.old (Nat.lt_of_lt_of_le hid hmade.size)
    exact (hmade.file_of_node? hold).resolve_right not_false
  · exact hplaced.kept l node (hmade.kept l node hl)
  · exact (hplaced.elsewhere l hl).trans (hmade.fileAt?_eq fun _ _ hfalse => hfalse)
  · exact hosts.grown hgrown (hcreated.well.modify _ _)
  · exact (hmade.mono fun _ => False.elim).trans hgrown
  · exact (hnames.trans hcreated.namesKept).trans (.append d₂ id bytes)

end Hosts

end JarReader.Disk

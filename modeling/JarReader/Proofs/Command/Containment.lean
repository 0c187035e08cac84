import JarReader.Proofs.Command.Extraction
import JarReader.Zip.Writing

namespace JarReader

namespace Disk

def Below (base location : Location) : Prop := base <+: location ∧ location ≠ base

/-- What is not below `base` is the same as before, and a file with other bytes has a name below it. -/
structure ChangedBelow (base : Location) (d d' : Disk) : Prop where
  home : d'.home = d.home
  nodes : ∀ location, ¬ Below base location → d'.node? location = d.node? location
  files : ∀ id, id.index < d.files.size → d'.file? id = d.file? id ∨
    ∃ location, Below base location ∧ d.node? location = some (.file id)

def MayChange (d : Disk) (base : Location) (id : FileId) : Prop :=
  d.files.size ≤ id.index ∨ ∃ location, Below base location ∧ d.node? location = some (.file id)

variable {d d' : Disk} {base : Location}

lemma Grown.changedBelow (h : Grown (Below base) (d.MayChange base) d d') : ChangedBelow base d d' where
  home := h.home
  nodes := fun location hlocation => by
    cases hnode : d'.node? location with
    | some node => exact ((h.fresh _ _ hnode).resolve_right fun he => hlocation he.1).symm
    | none =>
      cases hold : d.node? location with
      | none => rfl
      | some node => cases hnode.symm.trans (h.kept _ _ hold)
  files := fun id hid => (h.files id).imp_right fun hmay =>
    hmay.resolve_left (Nat.not_le_of_lt hid)

lemma Grown.mayChange (h : Grown (Below base) (d.MayChange base) d d') {location : Location} {id : FileId}
    (hbelow : Below base location) (hnode : d'.node? location = some (.file id)) : d.MayChange base id := by
  rcases h.file_of_node? hnode with hold | hmay
  · exact .inr ⟨location, hbelow, hold⟩
  · exact hmay

lemma below_append {parent : Location} (h : base <+: parent) (name : String) :
    Below base (parent ++ [name]) := by
  refine ⟨h.trans (List.prefix_append _ _), ?_⟩
  rintro rfl
  have hlength := h.length_le
  rw [List.length_append, List.length_singleton] at hlength
  omega

end Disk

namespace Command

open Relation (ReflTransGen)

namespace Extraction

def IsContained (name : String) : Prop :=
  Path.isAbsolute name = false ∧ Disk.staysBelow 0 (Disk.moves (Disk.steps name)) = true

def writtenName (a : Arguments) (name : String) : String :=
  if a.junkPaths then baseName name else name

lemma outputPath_eq {a : Arguments} {directory : String} (h : a.directory? = some directory)
    (name : String) : outputPath a name = Path.join directory (writtenName a name) := by
  rw [outputPath, h]
  rfl

end Extraction

section Write

variable {d d₁ d₂ : Disk} {directory name : String} {base : Location}
  (hfind : d.find directory = .ok (base, .directory)) (hname : Extraction.IsContained name)
  (hgrown : Disk.Grown (Disk.Below base) (d.MayChange base) d d₁)
include hfind hname hgrown

lemma way_of_begins {start : String} {purpose : Disk.Purpose} {place : Place}
    (hstart : Path.Begins start (Path.join directory name)) (h : d₁.locate purpose start = .ok place)
    (hends : purpose ≠ .change ∨ ∃ parent name, place = .vacant parent name) :
    Disk.moves (Disk.steps start) <+:
        Disk.moves (Disk.steps directory) ++ Disk.moves (Disk.steps name) ∧
      d₁.Way (d.startOf directory) (Disk.moves (Disk.steps start)) place := by
  obtain ⟨habsolute, hmoves⟩ := hstart.resolve_left (Disk.ne_empty_of_locate h)
  have hne : directory ≠ "" := by
    rintro rfl
    cases hfind
  have hway := Disk.way_of_locate h hends
  rw [Disk.moves_join hname.1] at hmoves
  rw [Path.isAbsolute_join hname.1 hne] at habsolute
  rw [Disk.startOf, habsolute, hgrown.home, ← Disk.startOf] at hway
  exact ⟨hmoves, hway⟩

variable (hlinks : d.LinkFree base)
include hlinks

lemma below_of_begins {start last : String} {purpose : Disk.Purpose} {parent : Location}
    (hstart : Path.Begins start (Path.join directory name))
    (h : d₁.locate purpose start = .ok (.vacant parent last)) :
    Disk.Below base (parent ++ [last]) := by
  obtain ⟨hbegins, hway⟩ := way_of_begins hfind hname hgrown hstart h (.inr ⟨_, _, rfl⟩)
  have hbase := (Disk.way_of_find hfind).kept hgrown.kept
  exact Disk.below_append (hbase.prefix_of_vacant (hgrown.linkFree hlinks) hname.2 hbegins hway) last

lemma mayChange_of_locate {location : Location} {id : FileId}
    (h : d₁.locate .make (Path.join directory name) = .ok (.node location (.file id))) :
    d.MayChange base id := by
  obtain ⟨_, hway⟩ := way_of_begins hfind hname hgrown (.inr ⟨rfl, List.prefix_rfl⟩) h (.inl (by decide))
  rw [Disk.moves_join hname.1] at hway
  have hbase := (Disk.way_of_find hfind).kept hgrown.kept
  have hwithin : base <+: location := hbase.within_append (hgrown.linkFree hlinks) hname.2 hway
  have hdirectory : d₁.node? base = some .directory := hbase.isOn
  have hfile : d₁.node? location = some (.file id) := hway.isOn
  refine hgrown.mayChange ⟨hwithin, ?_⟩ hfile
  rintro rfl
  cases hdirectory.symm.trans hfile

lemma grown_writes (hwrites : Writes (Path.join directory name) d₁ d₂) :
    Disk.Grown (Disk.Below base) (d.MayChange base) d d₂ := by
  have hmade {d₂ : Disk} (h : ReflTransGen (Disk.Makes (Path.above (Path.join directory name))) d₁ d₂) :
      Disk.Grown (Disk.Below base) (d.MayChange base) d d₂ :=
    hgrown.trans (Disk.Grown.makes h fun _ hstart _ h' _ _ hlocate =>
      below_of_begins hfind hname (hgrown.trans h') hlinks (Path.begins_of_mem_above hstart) hlocate)
  cases hwrites with
  | directories h => exact hmade h
  | file bytes h hcreate =>
    have hdirectories := hmade h
    obtain ⟨hcreated, hmay⟩ := Disk.Grown.create hcreate
      (fun _ _ => mayChange_of_locate hfind hname hdirectories hlinks)
      fun parent last hlocate => ⟨below_of_begins hfind hname hdirectories hlinks
        (.inr ⟨rfl, List.prefix_rfl⟩) hlocate, .inl hdirectories.size⟩
    exact (hdirectories.trans hcreated).trans (Disk.Grown.modify hmay _)

end Write

/-- A run that extracts to a directory without links changes nothing outside it if the names of the entries,
followed from a directory, stay in it. -/
theorem run_changedBelow {words : List String} {a : Arguments} {d : Disk} {directory : String}
    {base : Location} (hwords : Request.ofWords words = .run a)
    (hdirectory : a.directory? = some directory) (hfind : d.find directory = .ok (base, .directory))
    (hlinks : d.LinkFree base)
    (hnames : ∀ j e, (openJar a (.start d)).1 = .ok j → e ∈ Extraction.selected a j →
      Extraction.IsContained (Extraction.writtenName a e.name)) :
    Disk.ChangedBelow base d (run words d).disk := by
  refine Disk.Grown.changedBelow ?_
  have hreach := puts_run (d := d) hwords
  generalize (run words d).disk = last at hreach
  induction hreach with
  | refl => exact Disk.Grown.refl d
  | tail _ hputs ih =>
    obtain ⟨path, hpath, _, hwrites⟩ := hputs
    obtain ⟨_, j, hj, e, he, rfl⟩ := mem_outputPaths.mp hpath
    rw [Extraction.outputPath_eq hdirectory] at hwrites
    exact grown_writes hfind (hnames j e hj he) ih hlinks hwrites

def targetDisk (name : String) : Disk :=
  let bytes := (Zip.Archive.mk [⟨name.toUTF8, "x".toUTF8, .empty, 0⟩] .empty false).bytes
  ((Disk.empty ["w"]).makeDirectory "out" >>= fun d => d.writeFile "a.jar" bytes 0).toOption.getD
    (.empty [])

def targetArguments : Arguments :=
  ⟨"a.jar", [], false, false, false, false, some "out", [], false, false, false, 0, false⟩

theorem run_changedBelow_turning :
    Request.ofWords ["a.jar", "-d", "out"] = .run targetArguments ∧
      (targetDisk "a/../b").find "out" = .ok (["w", "out"], .directory) ∧
      (targetDisk "a/../b").LinkFree ["w", "out"] ∧
      (∀ j e, (openJar targetArguments (.start (targetDisk "a/../b"))).1 = .ok j →
        e ∈ Extraction.selected targetArguments j →
          Extraction.IsContained (Extraction.writtenName targetArguments e.name)) ∧
      (run ["a.jar", "-d", "out"] (targetDisk "a/../b")).disk.node? ["w", "out", "b"] =
        some (.file ⟨1⟩) ∧
      Disk.ChangedBelow ["w", "out"] (targetDisk "a/../b")
        (run ["a.jar", "-d", "out"] (targetDisk "a/../b")).disk := by
  have hwords : Request.ofWords ["a.jar", "-d", "out"] = .run targetArguments := by decide +kernel
  have hfind : (targetDisk "a/../b").find "out" = .ok (["w", "out"], .directory) := by decide +kernel
  have hlinks := Disk.linkFree_of_nodes (d := targetDisk "a/../b") (by decide +kernel) ["w", "out"]
  have hnames : ∀ j e, (openJar targetArguments (.start (targetDisk "a/../b"))).1 = .ok j →
      e ∈ Extraction.selected targetArguments j →
        Extraction.IsContained (Extraction.writtenName targetArguments e.name) := by
    intro j e hj he
    have hselected : ((openJar targetArguments (.start (targetDisk "a/../b"))).1.toOption.map fun j =>
        (Extraction.selected targetArguments j).map Entry.name) = some ["a/../b"] := by
      decide +kernel
    rw [hj] at hselected
    have hnames : (Extraction.selected targetArguments j).map Entry.name = ["a/../b"] :=
      Option.some.inj hselected
    have hname : e.name ∈ ["a/../b"] := hnames ▸ List.mem_map_of_mem he
    rw [List.mem_singleton.mp hname]
    exact ⟨by decide +kernel, by decide +kernel⟩
  exact ⟨hwords, hfind, hlinks, hnames, by decide +kernel,
    run_changedBelow hwords rfl hfind hlinks hnames⟩

theorem not_changedBelow_climbing :
    Request.ofWords ["a.jar", "-d", "out"] = .run targetArguments ∧
      (targetDisk "../b").find "out" = .ok (["w", "out"], .directory) ∧
      (targetDisk "../b").LinkFree ["w", "out"] ∧
      ¬ Disk.ChangedBelow ["w", "out"] (targetDisk "../b")
        (run ["a.jar", "-d", "out"] (targetDisk "../b")).disk := by
  refine ⟨by decide +kernel, by decide +kernel, Disk.linkFree_of_nodes (by decide +kernel) _, ?_⟩
  intro hchanged
  have hsame := hchanged.nodes ["w", "b"] fun hbelow => by
    have hfront : ["w", "out"].isPrefixOf ["w", "b"] = true := List.isPrefixOf_iff_prefix.mpr hbelow.1
    cases hfront
  have hnone : (targetDisk "../b").node? ["w", "b"] = none := by decide +kernel
  have hfile : (run ["a.jar", "-d", "out"] (targetDisk "../b")).disk.node? ["w", "b"] =
      some (.file ⟨1⟩) := by
    decide +kernel
  rw [hnone, hfile] at hsame
  cases hsame

end Command

end JarReader

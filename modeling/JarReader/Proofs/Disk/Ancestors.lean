import JarReader.Proofs.Disk.Join
import JarReader.Proofs.Disk.Way

namespace JarReader

lemma Disk.moves_steps (path : String) :
    Disk.moves (Disk.steps path) = (Path.pieces path).filter (· ≠ ".") := by
  have hpieces : Disk.moves (Path.pieces path) = (Path.pieces path).filter (· ≠ ".") := by
    refine List.filter_congr fun name hname => ?_
    simp [(Path.isPiece_of_mem_pieces hname).1]
  rw [Disk.steps, Disk.moves_append, hpieces]
  split <;> simp [Disk.moves]

lemma Disk.moves_join {directory name : String} (h : Path.isAbsolute name = false) :
    moves (steps (Path.join directory name)) = moves (steps directory) ++ moves (steps name) := by
  rw [moves_steps, moves_steps, moves_steps, Path.pieces_join h, List.filter_append]

namespace Path

def Begins (start path : String) : Prop :=
  start = "" ∨
    isAbsolute start = isAbsolute path ∧ Disk.moves (Disk.steps start) <+: Disk.moves (Disk.steps path)

lemma ofComponents_append (first : List Component) (names : List String) :
    ofComponents (first ++ names.map ofPiece) = names.foldl join (ofComponents first) := by
  rw [ofComponents, List.foldl_append, ← ofComponents, List.foldl_map]
  simp only [ofPiece_text]

lemma exists_components (path : String) :
    ∃ first, components path = first ++ (Disk.moves (Disk.steps path)).map ofPiece ∧
      (isAbsolute path = true ∧ first = [.root] ∨
        isAbsolute path = false ∧ (first = [.here] ∨ first = [])) := by
  rw [Disk.moves_steps, components]
  by_cases habsolute : isAbsolute path = true
  · rw [if_pos habsolute]
    exact ⟨[.root], rfl, .inl ⟨habsolute, rfl⟩⟩
  rw [if_neg habsolute]
  split
  · exact ⟨[.here], rfl, .inr ⟨by simpa using habsolute, .inl rfl⟩⟩
  · exact ⟨[], rfl, .inr ⟨by simpa using habsolute, .inr rfl⟩⟩

lemma begins_foldl_join {start path : String} {names : List String}
    (hnames : names <+: Disk.moves (Disk.steps path)) (hstart : Disk.moves (Disk.steps start) = [])
    (habsolute : start ≠ "" → isAbsolute start = isAbsolute path)
    (hrelative : start = "" → isAbsolute path = false) : Begins (names.foldl join start) path := by
  have hkept : ∀ name ∈ names, name ∈ (pieces path).filter (· ≠ ".") := by
    intro name hname
    rw [← Disk.moves_steps]
    exact hnames.subset hname
  have hpiece : ∀ name ∈ names, IsPiece name := fun name hname =>
    isPiece_of_mem_pieces (List.mem_filter.mp (hkept name hname)).1
  have hmoves : Disk.moves (Disk.steps (names.foldl join start)) = names := by
    rw [Disk.moves_steps] at hstart
    rw [Disk.moves_steps, pieces_foldl_join hpiece, List.filter_append, hstart, List.nil_append]
    exact List.filter_eq_self.mpr fun name hname => (List.mem_filter.mp (hkept name hname)).2
  by_cases hempty : start = ""
  · subst hempty
    cases names with
    | nil => exact .inl rfl
    | cons name names =>
      have hname := hpiece name List.mem_cons_self
      refine .inr ⟨?_, hmoves.symm ▸ hnames⟩
      have hjoin : join "" name = name := by simp [join]
      rw [hrelative rfl, List.foldl_cons, hjoin,
        isAbsolute_foldl_join (fun n hn => hpiece n (List.mem_cons_of_mem name hn)) hname.1,
        hname.isAbsolute]
  · exact .inr ⟨(isAbsolute_foldl_join hpiece hempty).trans (habsolute hempty), hmoves.symm ▸ hnames⟩

lemma begins_ofComponents {path : String} {cs : List Component} (h : cs <+: components path) :
    Begins (ofComponents cs) path := by
  obtain ⟨first, hcomponents, hfirst⟩ := exists_components path
  rw [hcomponents] at h
  have hfold {names : List Component} (hn : names <+: (Disk.moves (Disk.steps path)).map ofPiece) :
      Begins (ofComponents (first ++ names)) path := by
    obtain ⟨names, hbegins, rfl⟩ := List.prefix_map_iff.mp hn
    rw [ofComponents_append]
    rcases hfirst with ⟨habsolute, rfl⟩ | ⟨hrelative, rfl | rfl⟩
    · exact begins_foldl_join hbegins rfl (fun _ => habsolute.symm) fun he => absurd he (by decide)
    · exact begins_foldl_join hbegins rfl (fun _ => hrelative.symm) fun he => absurd he (by decide)
    · exact begins_foldl_join hbegins rfl (fun hne => absurd rfl hne) fun _ => hrelative
  have hcons {c : Component} (hc : first = [c]) : Begins (ofComponents cs) path := by
    rw [hc, List.singleton_append, List.prefix_cons_iff] at h
    rcases h with rfl | ⟨rest, rfl, hrest⟩
    · exact .inl rfl
    · rw [hc] at hfold
      exact hfold hrest
  rcases hfirst with ⟨_, hroot⟩ | ⟨_, hhere | rfl⟩
  · exact hcons hroot
  · exact hcons hhere
  · exact hfold h

lemma Begins.ofComponents {start path : String} {cs : List Component} (h : Begins start path)
    (hcs : cs <+: components start) : Begins (ofComponents cs) path := by
  rcases h with rfl | ⟨habsolute, hmoves⟩
  · exact .inl (List.prefix_nil.mp hcs ▸ rfl)
  · rcases begins_ofComponents hcs with he | ⟨ha, hm⟩
    · exact .inl he
    · exact .inr ⟨ha.trans habsolute, hm.trans hmoves⟩

def above (path : String) : List String :=
  match parent? path with
  | some parent => ancestors parent
  | none => []

lemma begins_of_mem_above {path start : String} (h : start ∈ above path) : Begins start path := by
  rw [above] at h
  split at h
  · rename_i parent hparent
    have hpath : Begins parent path := by
      rw [parent?] at hparent
      split at hparent
      · cases hparent
      · cases hparent
      · cases hparent
        exact begins_ofComponents (List.dropLast_prefix _)
    rcases List.mem_cons.mp h with rfl | h
    · exact hpath
    · obtain ⟨n, _, rfl⟩ := List.mem_map.mp h
      exact hpath.ofComponents (List.take_prefix n _)
  · cases h

end Path

end JarReader

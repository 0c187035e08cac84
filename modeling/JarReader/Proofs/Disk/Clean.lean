import JarReader.Proofs.Disk.Ancestors

namespace JarReader.Path

/-- A relative name without empty, `.` and `..` components. -/
def Clean (name : String) : Prop :=
  ∀ piece ∈ name.toList.splitOn '/', piece ≠ [] ∧ piece ≠ ['.'] ∧ piece ≠ ['.', '.']

instance : DecidablePred Clean := fun name =>
  inferInstanceAs (Decidable (∀ piece ∈ name.toList.splitOn '/',
    piece ≠ [] ∧ piece ≠ ['.'] ∧ piece ≠ ['.', '.']))

lemma endsWithSlash_append (s : String) {t : String} (h : t ≠ "") :
    endsWithSlash (s ++ t) = endsWithSlash t := by
  have hne : t.toList ≠ [] := by simpa using h
  rw [endsWithSlash, endsWithSlash, String.toList_append, List.getLast?_append_of_ne_nil _ hne]

lemma endsWithSlash_join (directory : String) {name : String} (h : name ≠ "") :
    endsWithSlash (join directory name) = endsWithSlash name := by
  rw [join]
  split
  · rfl
  · split
    · exact endsWithSlash_append _ h
    · exact endsWithSlash_append _ h

namespace Clean

variable {name other piece : String}

lemma ne_empty (h : Clean name) : name ≠ "" := by
  rintro rfl
  exact (h [] List.mem_cons_self).1 rfl

lemma pieces_eq (h : Clean name) : pieces name = (name.toList.splitOn '/').map .ofList := by
  have hkept : (name.toList.splitOn '/').filter (· ≠ []) = name.toList.splitOn '/' :=
    List.filter_eq_self.mpr fun piece hpiece => by simpa using (h piece hpiece).1
  rw [pieces, hkept]

lemma pieces_ne_nil (h : Clean name) : pieces name ≠ [] := by
  intro hnil
  apply List.splitOn_ne_nil '/' name.toList
  apply List.map_eq_nil_iff.mp
  exact h.pieces_eq.symm.trans hnil

lemma ne_of_mem (h : Clean name) (hpiece : piece ∈ pieces name) :
    piece ≠ "" ∧ piece ≠ "." ∧ piece ≠ ".." := by
  rw [h.pieces_eq] at hpiece
  obtain ⟨chars, hchars, rfl⟩ := List.mem_map.mp hpiece
  simpa [← String.toList_inj] using h chars hchars

lemma isAbsolute (h : Clean name) : isAbsolute name = false := by
  refine Bool.eq_false_iff.mpr fun habsolute => ?_
  obtain ⟨rest, hrest⟩ : ∃ rest, name.toList = '/' :: rest := by
    simpa [Path.isAbsolute, List.head?_eq_some_iff] using habsolute
  have hfirst : [] ∈ name.toList.splitOn '/' := by
    rw [hrest, List.splitOn_cons_eq_if_modifyHead]
    exact List.mem_cons_self
  exact (h [] hfirst).1 rfl

lemma endsWithSlash (h : Clean name) : endsWithSlash name = false := by
  refine Bool.eq_false_iff.mpr fun hslash => ?_
  obtain ⟨front, hfront⟩ := List.getLast?_eq_some_iff.mp (beq_iff_eq.mp hslash)
  have hsplit : name.toList.splitOn '/' = front.splitOn '/' ++ [[]] := by
    rw [hfront]
    exact List.splitOnP_append_cons front [] (beq_self_eq_true '/')
  have hlast : [] ∈ name.toList.splitOn '/' := by
    rw [hsplit]
    exact List.mem_append_right _ List.mem_cons_self
  exact (h [] hlast).1 rfl

lemma steps_join (h : Clean name) (directory : String) :
    Disk.steps (join directory name) = pieces directory ++ pieces name := by
  rw [Disk.steps, pieces_join h.isAbsolute, endsWithSlash_join directory h.ne_empty, h.endsWithSlash,
    if_neg Bool.false_ne_true, List.append_nil]

lemma eq_of_pieces (h : Clean name) (hother : Clean other) (he : pieces name = pieces other) :
    name = other := by
  rw [h.pieces_eq, hother.pieces_eq] at he
  have hsplit : name.toList.splitOn '/' = other.toList.splitOn '/' :=
    List.map_injective_iff.mpr (fun _ _ => String.ofList_inj.mp) he
  rw [← String.toList_inj]
  calc name.toList
    _ = ['/'].intercalate (name.toList.splitOn '/') := (List.intercalate_splitOn '/').symm
    _ = ['/'].intercalate (other.toList.splitOn '/') := by rw [hsplit]
    _ = other.toList := List.intercalate_splitOn '/'

lemma exists_fileName? (h : Clean name) : ∃ last, fileName? name = some last ∧ Clean last := by
  have hmoves : Disk.moves (Disk.steps name) = pieces name := by
    rw [Disk.moves_steps]
    exact List.filter_eq_self.mpr fun piece hpiece => by simpa using (h.ne_of_mem hpiece).2.1
  obtain ⟨first, hcomponents, _⟩ := exists_components name
  obtain ⟨front, last, hlast⟩ := (List.eq_nil_or_concat' (pieces name)).resolve_left h.pieces_ne_nil
  have hmem : last ∈ pieces name := by
    rw [hlast]
    exact List.mem_append_right _ List.mem_cons_self
  obtain ⟨hempty, hhere, hup⟩ := h.ne_of_mem hmem
  refine ⟨last, ?_, fun chars hchars => ?_⟩
  · rw [hmoves, hlast, List.map_append, ← List.append_assoc] at hcomponents
    rw [fileName?, hcomponents, List.map_singleton, List.getLast?_concat, ofPiece, if_neg hup]
  · rw [(isPiece_of_mem_pieces hmem).splitOn, List.mem_singleton] at hchars
    rw [hchars, ← String.toList_empty]
    exact ⟨String.toList_inj.not.mpr hempty, String.toList_inj.not.mpr hhere,
      String.toList_inj.not.mpr hup⟩

end Clean

end JarReader.Path

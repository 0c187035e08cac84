import JarReader.Proofs.Disk.Path

namespace JarReader.Path

lemma pieces_append_slash (s t : String) : pieces (s ++ "/" ++ t) = pieces s ++ pieces t := by
  have hsplit : (s ++ "/" ++ t).toList.splitOn '/' = s.toList.splitOn '/' ++ t.toList.splitOn '/' := by
    have hlist : (s ++ "/" ++ t).toList = s.toList ++ '/' :: t.toList := by simp
    rw [hlist]
    exact List.splitOnP_append_cons _ _ (beq_self_eq_true '/')
  rw [pieces, hsplit, List.filter_append, List.map_append, ← pieces, ← pieces]

lemma pieces_empty : pieces "" = [] := rfl

lemma pieces_append_of_slash {s : String} (h : endsWithSlash s = true) (t : String) :
    pieces (s ++ t) = pieces s ++ pieces t := by
  obtain ⟨front, hfront⟩ := List.getLast?_eq_some_iff.mp (beq_iff_eq.mp h)
  obtain rfl : s = .ofList front ++ "/" := by
    rw [← String.toList_inj, hfront]
    simp
  have hempty := pieces_append_slash (.ofList front) ""
  rw [String.append_empty, pieces_empty, List.append_nil] at hempty
  rw [pieces_append_slash, hempty]

lemma pieces_join {directory name : String} (h : isAbsolute name = false) :
    pieces (join directory name) = pieces directory ++ pieces name := by
  rw [join, h, if_neg Bool.false_ne_true]
  by_cases hempty : directory = ""
  · simp [hempty, pieces_empty]
  by_cases hslash : endsWithSlash directory = true
  · rw [if_pos (by simp [hslash]), pieces_append_of_slash hslash]
  · rw [if_neg (by simp [hempty, hslash]), pieces_append_slash]

lemma isAbsolute_append {s : String} (h : s ≠ "") (t : String) :
    isAbsolute (s ++ t) = isAbsolute s := by
  rw [isAbsolute, isAbsolute, String.toList_append, List.head?_append_of_ne_nil _ (by simpa using h)]

lemma isAbsolute_join {directory name : String} (h : isAbsolute name = false)
    (hne : directory ≠ "") : isAbsolute (join directory name) = isAbsolute directory := by
  rw [join, h, if_neg Bool.false_ne_true]
  split
  · exact isAbsolute_append hne name
  · rw [String.append_assoc, isAbsolute_append hne]

lemma join_ne_empty {directory : String} (h : directory ≠ "") (name : String) :
    join directory name ≠ "" := by
  rw [join]
  split
  · rename_i habsolute
    rintro rfl
    cases habsolute
  · split <;> simp [h]

lemma foldl_join_ne_empty {directory : String} (h : directory ≠ "") (names : List String) :
    names.foldl join directory ≠ "" := by
  induction names generalizing directory with
  | nil => exact h
  | cons name names ih => exact ih (join_ne_empty h name)

lemma join_empty {path : String} (h : endsWithSlash path = true) : join path "" = path := by
  have hjoin : join path "" =
      if path = "" || endsWithSlash path then path ++ "" else path ++ "/" ++ "" := rfl
  rw [hjoin, h, Bool.or_true, if_pos rfl, String.append_empty]

lemma endsWithSlash_join_empty {path : String} (h : path ≠ "") :
    endsWithSlash (join path "") = true := by
  by_cases hslash : endsWithSlash path = true
  · rw [join_empty hslash, hslash]
  · have hjoin : join path "" = path ++ "/" := by simp [join, isAbsolute, h, hslash]
    rw [hjoin, endsWithSlash, String.toList_append]
    exact beq_iff_eq.mpr List.getLast?_concat

lemma IsPiece.splitOn {name : String} (h : IsPiece name) :
    name.toList.splitOn '/' = [name.toList] := by
  have hone : (['/'].intercalate [name.toList]).splitOn '/' = [name.toList] :=
    List.splitOn_intercalate '/' (by simpa using h.2) (by simp)
  rwa [List.intercalate_singleton] at hone

lemma IsPiece.pieces {name : String} (h : IsPiece name) : pieces name = [name] := by
  rw [Path.pieces, h.splitOn]
  simp [h.1]

section Names

variable {names : List String} (hnames : ∀ name ∈ names, IsPiece name)
include hnames

lemma pieces_foldl_join (start : String) :
    pieces (names.foldl join start) = pieces start ++ names := by
  induction names generalizing start with
  | nil => simp
  | cons name names ih =>
    have hname := hnames name List.mem_cons_self
    rw [List.foldl_cons, ih fun n hn => hnames n (List.mem_cons_of_mem name hn),
      pieces_join hname.isAbsolute, hname.pieces, List.append_assoc]
    rfl

lemma isAbsolute_foldl_join {start : String} (h : start ≠ "") :
    isAbsolute (names.foldl join start) = isAbsolute start := by
  induction names generalizing start with
  | nil => rfl
  | cons name names ih =>
    have hname := hnames name List.mem_cons_self
    rw [List.foldl_cons, ih (fun n hn => hnames n (List.mem_cons_of_mem name hn))
      (join_ne_empty h name), isAbsolute_join hname.isAbsolute h]

end Names

section Absolute

variable (home : String) {path : String} (h : isAbsolute path = true)
include h

lemma pieces_absolute :
    pieces (absolute home path) = (pieces path).filter (· ≠ ".") := by
  have hnames : ∀ name ∈ (pieces path).filter (· ≠ "."), IsPiece name := fun name hname =>
    isPiece_of_mem_pieces (List.mem_filter.mp hname).1
  have hlead : pieces (lead path) = [] := by
    rcases lead_eq path with hl | hl <;> rw [hl] <;> rfl
  have hfold := pieces_foldl_join hnames (lead path)
  rw [hlead, List.nil_append] at hfold
  rw [absolute_eq home h]
  simp only
  split
  · rw [pieces_join rfl, hfold, pieces_empty, List.append_nil]
  · exact hfold

lemma components_absolute (habsolute : isAbsolute (absolute home path) = true) :
    components (absolute home path) = components path := by
  simp only [components, if_pos habsolute, if_pos h, pieces_absolute home h, List.filter_filter,
    Bool.and_self]

lemma beginsWith_absolute : beginsWith "//" (absolute home path) = (lead path == "//") := by
  by_cases hkept : kept path = []
  · rw [absolute_of_kept home h hkept]
    rcases lead_eq path with hl | hl <;> rw [hl] <;> rfl
  have hlist := toList_absolute_lead home h hkept
  have hslashes := apart_slashed_kept hkept
  obtain ⟨name, names, hk⟩ := List.exists_cons_of_ne_nil hkept
  rw [hk, List.map_cons, slashed_cons] at hlist hslashes
  rcases lead_eq path with hl | hl <;> rw [hl] at hlist ⊢
  · have hnone : ¬ ['/', '/'] <+: '/' :: (name.toList ++ slashed (names.map String.toList)) :=
      fun hbegins => Text.apart_iff_not_isInfix.mp hslashes hbegins.isInfix
    rw [beginsWith, hlist]
    exact Bool.eq_false_iff.mpr fun hbegins => hnone (List.isPrefixOf_iff_prefix.mp hbegins)
  · rw [beginsWith, hlist]
    rfl

lemma lead_absolute (hslashes : Text.Apart '/' '/' (absolute home path).toList.tail) :
    lead (absolute home path) = lead path := by
  have hthree : beginsWith "///" (absolute home path) = false := by
    refine Bool.eq_false_iff.mpr fun hbegins => ?_
    obtain ⟨rest, hrest⟩ := List.isPrefixOf_iff_prefix.mp hbegins
    rw [← hrest] at hslashes
    exact hslashes.rel rfl rfl
  rw [lead, hthree, beginsWith_absolute home h]
  rcases lead_eq path with hl | hl <;> rw [hl] <;> rfl

lemma absolute_absolute (habsolute : isAbsolute (absolute home path) = true)
    (hslashes : Text.Apart '/' '/' (absolute home path).toList.tail) :
    absolute home (absolute home path) = absolute home path := by
  have hfirst := absolute_eq home h
  have hagain := absolute_eq home habsolute
  rw [lead_absolute home h hslashes, pieces_absolute home h, List.filter_filter] at hagain
  simp only [Bool.and_self] at hfirst hagain
  have hwhole : ((pieces path).filter (· ≠ ".")).foldl join (lead path) ≠ "" := by
    refine foldl_join_ne_empty ?_ _
    rcases lead_eq path with hl | hl <;> rw [hl] <;> decide
  generalize ((pieces path).filter (· ≠ ".")).foldl join (lead path) = whole at hfirst hagain hwhole
  by_cases hend : endsWithSlash path = true
  · rw [if_pos hend] at hfirst
    rw [hagain, hfirst, if_pos (endsWithSlash_join_empty hwhole)]
  · rw [if_neg hend] at hfirst
    rw [hagain, hfirst]
    split
    · exact join_empty ‹_›
    · rfl

end Absolute

end JarReader.Path

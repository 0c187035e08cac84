import JarReader.Disk.Basic
import JarReader.Proofs.Text.Segment
import Mathlib.Data.List.Flatten

namespace JarReader.Path

def slashed (names : List (List Char)) : List Char := names.flatMap ('/' :: ·)

@[simp] lemma slashed_cons (name : List Char) (names : List (List Char)) :
    slashed (name :: names) = '/' :: (name ++ slashed names) := by
  simp [slashed]

lemma slashed_append (xs ys : List (List Char)) : slashed (xs ++ ys) = slashed xs ++ slashed ys := by
  simp [slashed]

lemma cons_intercalate {names : List (List Char)} (h : names ≠ []) :
    '/' :: ['/'].intercalate names = slashed names := by
  induction names with
  | nil => contradiction
  | cons name names ih =>
    cases names with
    | nil => simp [slashed]
    | cons next names =>
      rw [List.intercalate_cons_cons, slashed_cons, ← ih (List.cons_ne_nil _ _)]
      simp

lemma not_mem_of_mem_splitOn {text name : List Char} (h : name ∈ text.splitOn '/') : '/' ∉ name := by
  induction text generalizing name with
  | nil =>
    obtain rfl := List.mem_singleton.mp h
    exact List.not_mem_nil
  | cons c text ih =>
    rw [List.splitOn_cons_eq_if_modifyHead] at h
    split at h
    · rcases List.mem_cons.mp h with rfl | h
      · exact List.not_mem_nil
      · exact ih h
    · rename_i hc
      obtain ⟨first, others, hs⟩ := List.exists_cons_of_ne_nil (List.splitOn_ne_nil '/' text)
      rw [hs] at ih h
      rcases List.mem_cons.mp h with rfl | h
      · have hfirst := ih List.mem_cons_self
        simp only [List.mem_cons, not_or]
        exact ⟨fun he => hc (beq_iff_eq.mpr he.symm), hfirst⟩
      · exact ih (List.mem_cons_of_mem first h)

lemma exists_slashed {path : String} (h : isAbsolute path = true) :
    ∃ names, names ≠ [] ∧ path.toList = slashed names ∧ ∀ name ∈ names, '/' ∉ name := by
  obtain ⟨rest, hrest⟩ : ∃ rest, path.toList = '/' :: rest := by
    simpa [isAbsolute, List.head?_eq_some_iff] using h
  have hne := List.splitOn_ne_nil '/' rest
  refine ⟨rest.splitOn '/', hne, ?_, fun name => not_mem_of_mem_splitOn⟩
  rw [hrest, ← cons_intercalate hne, List.intercalate_splitOn]

section Slashed

variable {path : String} {names : List (List Char)} (hpath : path.toList = slashed names)
  (hnames : ∀ name ∈ names, '/' ∉ name)
include hpath hnames

lemma pieces_slashed : pieces path = (names.filter (· ≠ [])).map .ofList := by
  cases names with
  | nil =>
    rw [pieces, hpath]
    rfl
  | cons name names =>
    have hsplit : (slashed (name :: names)).splitOn '/' = [] :: name :: names := by
      rw [← cons_intercalate (List.cons_ne_nil _ _), List.splitOn_cons_eq_if_modifyHead,
        List.splitOn_intercalate _ hnames (List.cons_ne_nil _ _)]
      rfl
    rw [pieces, hpath, hsplit, List.filter_cons_of_neg (by simp)]

lemma endsWithSlash_slashed : endsWithSlash path = (names.getLast? == some []) := by
  rcases List.eq_nil_or_concat' names with rfl | ⟨names, last, rfl⟩
  · simp [endsWithSlash, hpath, slashed]
  · rw [endsWithSlash, hpath, slashed_append, slashed_cons, List.getLast?_concat]
    rcases List.eq_nil_or_concat' last with rfl | ⟨last, c, rfl⟩
    · simp [slashed]
    · have hc : c ≠ '/' := by
        rintro rfl
        exact hnames _ (List.mem_append_right _ List.mem_cons_self) (by simp)
      have hend : slashed names ++ '/' :: (last ++ [c] ++ slashed []) =
          (slashed names ++ '/' :: last) ++ [c] := by
        simp [slashed]
      rw [hend, List.getLast?_concat, Bool.eq_iff_iff]
      simp [hc]

end Slashed

def IsPiece (name : String) : Prop := name ≠ "" ∧ '/' ∉ name.toList

lemma isPiece_of_mem_pieces {path name : String} (h : name ∈ pieces path) : IsPiece name := by
  obtain ⟨chars, hchars, rfl⟩ := List.mem_map.mp h
  obtain ⟨hmem, hne⟩ := List.mem_filter.mp hchars
  refine ⟨by simpa using hne, ?_⟩
  rw [String.toList_ofList]
  exact not_mem_of_mem_splitOn hmem

lemma IsPiece.isAbsolute {name : String} (h : IsPiece name) : isAbsolute name = false := by
  rw [Path.isAbsolute, beq_eq_false_iff_ne]
  intro he
  exact h.2 (List.mem_of_mem_head? he)

lemma IsPiece.endsWithSlash {name : String} (h : IsPiece name) (start : String) :
    endsWithSlash (start ++ name) = false := by
  have hne : name.toList ≠ [] := by simpa using h.1
  rw [Path.endsWithSlash, String.toList_append, List.getLast?_append_of_ne_nil _ hne,
    beq_eq_false_iff_ne]
  intro he
  exact h.2 (List.mem_of_getLast? he)

lemma IsPiece.join {name path : String} (h : IsPiece name) (hne : path ≠ "")
    (hslash : Path.endsWithSlash path = false) : join path name = path ++ "/" ++ name := by
  rw [Path.join, h.isAbsolute, if_neg Bool.false_ne_true, hslash, if_neg (by simpa using hne)]

lemma foldl_join {names : List String} (hnames : ∀ name ∈ names, IsPiece name) (path : String)
    (hne : path ≠ "") (hslash : endsWithSlash path = false) :
    names.foldl join path = path ++ .ofList (slashed (names.map String.toList)) ∧
      endsWithSlash (names.foldl join path) = false := by
  induction names generalizing path with
  | nil => exact ⟨by simp [slashed], hslash⟩
  | cons name names ih =>
    have hname := hnames name List.mem_cons_self
    rw [List.foldl_cons, hname.join hne hslash]
    obtain ⟨hfold, hend⟩ := ih (fun n hn => hnames n (List.mem_cons_of_mem name hn))
      (path ++ "/" ++ name) (by simp) (hname.endsWithSlash _)
    refine ⟨?_, hend⟩
    rw [hfold, ← String.toList_inj]
    simp

def kept (path : String) : List String := (Disk.steps path).filter (· ≠ ".")

lemma kept_eq (path : String) :
    kept path = (pieces path).filter (· ≠ ".") ++ if endsWithSlash path then [""] else [] := by
  rw [kept, Disk.steps, List.filter_append]
  split <;> rfl

/-- The slashes in front of an absolute path: two stay two, and more are one. -/
def lead (path : String) : String :=
  if beginsWith "//" path && !beginsWith "///" path then "//" else "/"

lemma lead_eq (path : String) : lead path = "/" ∨ lead path = "//" := by
  rw [lead]
  split
  · exact .inr rfl
  · exact .inl rfl

lemma lead_of_single {path : String} (h : beginsWith "//" path = false) : lead path = "/" := by
  rw [lead, h, Bool.false_and, if_neg Bool.false_ne_true]

lemma ofPiece_text (name : String) : (ofPiece name).text = name := by
  rw [ofPiece]
  split
  · exact ‹name = ".."› ▸ rfl
  · rfl

lemma absolute_eq (home : String) {path : String} (habsolute : isAbsolute path = true) :
    absolute home path =
      let whole := ((pieces path).filter (· ≠ ".")).foldl join (lead path)
      if endsWithSlash path then join whole "" else whole := by
  have hne : path ≠ "" := by
    rintro rfl
    cases habsolute
  have hcomponents : (components path).filter (fun c => c ≠ .root && c ≠ .here) =
      ((pieces path).filter (· ≠ ".")).map ofPiece := by
    rw [components, if_pos habsolute, List.filter_cons_of_neg (by simp), List.filter_eq_self]
    intro c hc
    obtain ⟨name, _, rfl⟩ := List.mem_map.mp hc
    rw [ofPiece]
    split <;> rfl
  rw [absolute, if_neg hne, if_pos habsolute]
  simp only [hcomponents, List.foldl_map, ofPiece_text, lead]

lemma foldl_join_lead {names : List String} (hnames : ∀ name ∈ names, IsPiece name)
    (hne : names ≠ []) (path : String) :
    names.foldl join (lead path) =
        .ofList ((lead path).toList.dropLast ++ slashed (names.map String.toList)) ∧
      endsWithSlash (names.foldl join (lead path)) = false := by
  obtain ⟨name, names, rfl⟩ := List.exists_cons_of_ne_nil hne
  have hname := hnames name List.mem_cons_self
  have hjoin : join (lead path) name = lead path ++ name := by
    rw [join, hname.isAbsolute, if_neg Bool.false_ne_true]
    rcases lead_eq path with h | h <;> rw [h] <;> rfl
  obtain ⟨hfold, hend⟩ := foldl_join (fun n hn => hnames n (List.mem_cons_of_mem name hn))
    (lead path ++ name) (by rcases lead_eq path with h | h <;> simp [h])
    (hname.endsWithSlash (lead path))
  rw [List.foldl_cons, hjoin]
  refine ⟨?_, hend⟩
  rw [hfold, ← String.toList_inj]
  rcases lead_eq path with h | h <;> simp [h]

lemma exists_kept (path : String) :
    ∃ names, (∀ name ∈ names, IsPiece name) ∧ (pieces path).filter (· ≠ ".") = names ∧
      kept path = names ++ if endsWithSlash path then [""] else [] :=
  ⟨_, fun _ hname => isPiece_of_mem_pieces (List.mem_filter.mp hname).1, rfl, kept_eq path⟩

lemma absolute_of_kept (home : String) {path : String} (habsolute : isAbsolute path = true)
    (hkept : kept path = []) : absolute home path = lead path := by
  obtain ⟨names, _, hpieces, hk⟩ := exists_kept path
  obtain ⟨rfl, hend⟩ : names = [] ∧ endsWithSlash path = false := by
    rw [hk, List.append_eq_nil_iff] at hkept
    exact ⟨hkept.1, by simpa using hkept.2⟩
  rw [absolute_eq home habsolute, hpieces, hend]
  rfl

lemma toList_absolute_lead (home : String) {path : String} (habsolute : isAbsolute path = true)
    (hkept : kept path ≠ []) :
    (absolute home path).toList =
      (lead path).toList.dropLast ++ slashed ((kept path).map String.toList) := by
  obtain ⟨names, hnames, hpieces, hk⟩ := exists_kept path
  rw [absolute_eq home habsolute, hpieces]
  rw [hk] at hkept ⊢
  by_cases hne : names = []
  -- only slashes and dots: what is left is the root, with its slash
  · rw [hne, List.nil_append, ne_eq, ite_eq_right_iff, Classical.not_imp] at hkept
    rw [hne, if_pos hkept.1, if_pos hkept.1]
    rcases lead_eq path with h | h <;> rw [h] <;> rfl
  · obtain ⟨hfold, hend⟩ := foldl_join_lead hnames hne path
    cases endsWithSlash path with
    | false => simp [hfold]
    | true =>
      have hwhole : names.foldl join (lead path) ≠ "" := by
        rw [hfold, ← String.toList_inj.ne]
        obtain ⟨name, names, rfl⟩ := List.exists_cons_of_ne_nil hne
        simp
      have hjoin : join (names.foldl join (lead path)) "" = names.foldl join (lead path) ++ "/" := by
        simp [join, isAbsolute, hwhole, hend]
      change (join (names.foldl join (lead path)) "").toList = _
      rw [hjoin, hfold]
      simp [slashed]

lemma toList_absolute (home : String) {path : String} (habsolute : isAbsolute path = true)
    (hsingle : beginsWith "//" path = false) (hkept : kept path ≠ []) :
    (absolute home path).toList = slashed ((kept path).map String.toList) := by
  rw [toList_absolute_lead home habsolute hkept, lead_of_single hsingle]
  rfl

lemma isAbsolute_absolute (home : String) {path : String} (habsolute : isAbsolute path = true)
    (hsingle : beginsWith "//" path = false) (hkept : kept path ≠ []) :
    isAbsolute (absolute home path) = true := by
  rw [isAbsolute, toList_absolute home habsolute hsingle hkept]
  obtain ⟨name, names, hk⟩ := List.exists_cons_of_ne_nil hkept
  simp [hk]

lemma steps_absolute (home : String) {path : String} (habsolute : isAbsolute path = true)
    (hsingle : beginsWith "//" path = false) (hkept : kept path ≠ []) :
    Disk.steps (absolute home path) = kept path := by
  have hlist := toList_absolute home habsolute hsingle hkept
  obtain ⟨names, hnames, _, hk⟩ := exists_kept path
  have hnone : ∀ name ∈ (kept path).map String.toList, '/' ∉ name := by
    intro chars hchars
    obtain ⟨name, hname, rfl⟩ := List.mem_map.mp hchars
    rw [hk, List.mem_append] at hname
    rcases hname with hname | hname
    · exact (hnames name hname).2
    · split at hname
      · obtain rfl := List.mem_singleton.mp hname
        exact List.not_mem_nil
      · cases hname
  have hne : [] ∉ names.map String.toList := by
    intro hmem
    obtain ⟨name, hname, he⟩ := List.mem_map.mp hmem
    exact (hnames name hname).1 (String.toList_eq_nil_iff.mp he)
  have hfilter : (names.map String.toList).filter (· ≠ []) = names.map String.toList := by
    rw [List.filter_eq_self]
    intro chars hchars
    rw [decide_eq_true_eq]
    exact ne_of_mem_of_not_mem hchars hne
  have hlast : (names.map String.toList).getLast? ≠ some [] := fun he =>
    hne (List.mem_of_getLast? he)
  have hback : (names.map String.toList).map String.ofList = names := by simp [Function.comp_def]
  rw [Disk.steps, pieces_slashed hlist hnone, endsWithSlash_slashed hlist hnone, hk]
  cases endsWithSlash path with
  | false => simp only [Bool.false_eq_true, if_false, List.append_nil, hfilter, hback, beq_iff_eq, hlast]
  | true =>
    rw [if_pos rfl, List.map_append, List.filter_append, hfilter, List.map_append, hback]
    simp

lemma exists_slashed_kept {path : String} (h : isAbsolute path = true) :
    ∃ names, path.toList = slashed names ∧ ((kept path).map String.toList).Sublist names := by
  obtain ⟨names, hne, hlist, hnames⟩ := exists_slashed h
  have hsub (names : List (List Char)) : ((((names.filter (· ≠ [])).map String.ofList).filter
      (· ≠ ".")).map String.toList).Sublist names := by
    have hmap := (List.filter_sublist (l := (names.filter (· ≠ [])).map String.ofList)
      (p := fun name => name ≠ ".")).map String.toList
    have hback : ((names.filter (· ≠ [])).map String.ofList).map String.toList =
        names.filter (· ≠ []) := by
      simp [Function.comp_def]
    rw [hback] at hmap
    exact hmap.trans List.filter_sublist
  refine ⟨names, hlist, ?_⟩
  rw [kept_eq, pieces_slashed hlist hnames, endsWithSlash_slashed hlist hnames]
  obtain ⟨front, last, rfl⟩ := (List.eq_nil_or_concat' names).resolve_left hne
  rw [List.getLast?_concat]
  by_cases hlast : last = []
  · subst hlast
    rw [List.filter_append, List.filter_singleton]
    simpa using hsub front
  · simpa [hlast] using hsub (front ++ [last])

lemma toList_absolute_sublist (home : String) {path : String} (habsolute : isAbsolute path = true)
    (hsingle : beginsWith "//" path = false) (hkept : kept path ≠ []) :
    (absolute home path).toList.Sublist path.toList := by
  obtain ⟨names, hlist, hsub⟩ := exists_slashed_kept habsolute
  rw [toList_absolute home habsolute hsingle hkept, hlist]
  exact hsub.flatMap _

lemma apart_slashed_of_sublist {a : Char} {xs ys : List (List Char)} (h : xs.Sublist ys)
    (hy : Text.Apart a '/' (slashed ys)) : Text.Apart a '/' (slashed xs) := by
  induction h with
  | slnil => exact hy
  | cons y _ ih =>
    rw [slashed_cons, ← List.cons_append] at hy
    exact ih hy.right_of_append
  | @cons_cons xs ys y hs ih =>
    rw [slashed_cons, ← List.cons_append] at hy ⊢
    refine hy.left_of_append.append (ih hy.right_of_append) ?_
    intro x hx c hc
    obtain ⟨first, others, rfl⟩ : ∃ first others, xs = first :: others := by
      cases xs with
      | nil => cases hc
      | cons first others => exact ⟨first, others, rfl⟩
    obtain ⟨next, rest, rfl⟩ := List.exists_cons_of_ne_nil (List.ne_nil_of_mem (hs.subset List.mem_cons_self))
    have hrel := (List.isChain_append.mp hy).2.2 x hx '/' (by simp)
    rw [slashed_cons, List.head?_cons, Option.mem_some_iff] at hc
    rwa [← hc]

lemma apart_slash_cons {name : List Char} (h : '/' ∉ name) : Text.Apart '/' '/' ('/' :: name) := by
  refine List.isChain_cons.mpr ⟨?_, Text.Apart.of_not_mem (.inl h)⟩
  intro c hc _ he
  subst he
  exact h (List.mem_of_mem_head? hc)

lemma apart_slashed {names : List (List Char)} {last : List Char}
    (hnames : ∀ name ∈ names, name ≠ [] ∧ '/' ∉ name) (hlast : '/' ∉ last) :
    Text.Apart '/' '/' (slashed (names ++ [last])) := by
  induction names with
  | nil => simpa [slashed] using apart_slash_cons hlast
  | cons name names ih =>
    obtain ⟨hne, hname⟩ := hnames name List.mem_cons_self
    rw [List.cons_append, slashed_cons, ← List.cons_append]
    refine (apart_slash_cons hname).append (ih fun n hn => hnames n (List.mem_cons_of_mem name hn)) ?_
    intro c hc _ _ hslash
    rw [List.getLast?_cons_of_ne_nil hne] at hc
    subst hslash
    exact absurd (List.mem_of_getLast? hc) hname

lemma apart_slashed_kept {path : String} (h : kept path ≠ []) :
    Text.Apart '/' '/' (slashed ((kept path).map String.toList)) := by
  obtain ⟨names, hnames, _, hk⟩ := exists_kept path
  have hpiece : ∀ name ∈ names.map String.toList, name ≠ [] ∧ '/' ∉ name := by
    intro chars hchars
    obtain ⟨name, hname, rfl⟩ := List.mem_map.mp hchars
    exact ⟨String.toList_eq_nil_iff.not.mpr (hnames name hname).1, (hnames name hname).2⟩
  rw [hk] at h ⊢
  split
  · rw [List.map_append]
    exact apart_slashed hpiece List.not_mem_nil
  · rw [if_neg ‹_›, List.append_nil] at h
    rw [List.append_nil]
    obtain ⟨front, last, hs⟩ :=
      (List.eq_nil_or_concat' (names.map String.toList)).resolve_left (by simpa using h)
    rw [hs] at hpiece ⊢
    refine apart_slashed (fun name hname => hpiece name (List.mem_append_left _ hname)) ?_
    exact (hpiece last (by simp)).2

end JarReader.Path

import JarReader.Manifest
import Mathlib.Data.List.Basic
import Mathlib.Data.List.Induction

namespace JarReader.Attributes

section SameName

variable {a b c : String}

lemma sameName_iff : sameName a b = true ↔ a.toLower = b.toLower := beq_iff_eq

lemma sameName_comm (a b : String) : sameName a b = sameName b a := Bool.beq_comm

lemma sameName_eq :
    sameName = fun a b => a.toList.map Char.toLower == b.toList.map Char.toLower := by
  have htoLower (text : String) : text.toLower.toList = text.toList.map Char.toLower :=
    String.toList_map
  funext a b
  rw [sameName, Bool.eq_iff_iff, beq_iff_eq, beq_iff_eq, ← String.toList_inj, htoLower, htoLower]

lemma sameName_congr (h : sameName a b = true) (c : String) : sameName a c = sameName b c := by
  rw [sameName, sameName, sameName_iff.mp h]

end SameName

def lastValue? (lines : List (String × String)) (name : String) : Option String :=
  (lines.reverse.find? fun line => sameName line.1 name).map (·.2)

def firstNames (lines : List (String × String)) : List String :=
  (lines.map (·.1)).eraseDupsBy sameName

def collect (lines : List (String × String)) : Attributes :=
  ⟨(firstNames lines).map fun name => (name, (lastValue? lines name).getD "")⟩

lemma lastValue?_concat (lines : List (String × String)) (name value other : String) :
    lastValue? (lines ++ [(name, value)]) other =
      if sameName name other then some value else lastValue? lines other := by
  rw [lastValue?, List.reverse_concat, List.find?_cons]
  cases h : sameName name other with
  | true => rfl
  | false => rfl

lemma eraseDupsBy_concat {α : Type} (r : α → α → Bool) (as : List α) (a : α) :
    (as ++ [a]).eraseDupsBy r =
      if (as.eraseDupsBy r).any (r a) then as.eraseDupsBy r else as.eraseDupsBy r ++ [a] := by
  suffices h : ∀ bs, List.eraseDupsBy.loop r (as ++ [a]) bs =
      if (List.eraseDupsBy.loop r as bs).any (r a) then List.eraseDupsBy.loop r as bs
      else List.eraseDupsBy.loop r as bs ++ [a] from h []
  induction as with
  | nil =>
    intro bs
    rw [List.nil_append, List.eraseDupsBy.loop, List.eraseDupsBy.loop, List.any_reverse]
    cases bs.any (r a) with
    | true => rfl
    | false => exact List.reverse_cons
  | cons x as ih =>
    intro bs
    rw [List.cons_append, List.eraseDupsBy.loop, List.eraseDupsBy.loop]
    cases bs.any (r x) with
    | true => exact ih bs
    | false => exact ih (x :: bs)

lemma firstNames_concat (lines : List (String × String)) (name value : String) :
    firstNames (lines ++ [(name, value)]) =
      if (firstNames lines).any (sameName name) then firstNames lines
      else firstNames lines ++ [name] := by
  rw [firstNames, List.map_append, List.map_singleton, eraseDupsBy_concat]
  rfl

lemma pairwise_firstNames (lines : List (String × String)) :
    (firstNames lines).Pairwise fun a b => sameName a b = false := by
  induction lines using List.reverseRecOn with
  | nil => exact .nil
  | append_singleton lines line ih =>
    rw [firstNames_concat]
    split
    · exact ih
    · rename_i h
      rw [List.pairwise_append]
      refine ⟨ih, List.pairwise_singleton _ _, ?_⟩
      intro a ha b hb
      obtain rfl := List.mem_singleton.mp hb
      rw [sameName_comm]
      simpa using fun hs => h (List.any_eq_true.mpr ⟨a, ha, hs⟩)

section Insert

variable {names : List String} (value : String → String) {name : String} (new : String)

lemma insertPair_map (hd : names.Pairwise fun a b => sameName a b = false)
    (h : names.any (sameName name) = true) :
    insertPair name new (names.map fun n => (n, value n)) =
      names.map fun n => (n, if sameName name n then new else value n) := by
  induction names with
  | nil => cases h
  | cons n names ih =>
    rw [List.pairwise_cons] at hd
    rw [List.map_cons, List.map_cons, insertPair, sameName_comm]
    cases hn : sameName name n with
    | true =>
      have hothers : ∀ m ∈ names, sameName name m = false := by
        intro m hm
        rw [sameName_congr hn]
        exact hd.1 m hm
      rw [if_pos rfl, if_pos rfl]
      congr 1
      apply List.map_congr_left
      intro m hm
      rw [hothers m hm, if_neg Bool.false_ne_true]
    | false =>
      rw [List.any_cons, hn, Bool.false_or] at h
      rw [if_neg Bool.false_ne_true, if_neg Bool.false_ne_true, ih hd.2 h]

lemma insertPair_map_new (h : names.any (sameName name) = false) :
    insertPair name new (names.map fun n => (n, value n)) =
      (names.map fun n => (n, value n)) ++ [(name, new)] := by
  induction names with
  | nil => rfl
  | cons n names ih =>
    rw [List.any_cons, Bool.or_eq_false_iff] at h
    rw [List.map_cons, insertPair, sameName_comm, h.1, if_neg Bool.false_ne_true, ih h.2,
      List.cons_append]

end Insert

lemma collect_concat (lines : List (String × String)) (name value : String) :
    collect (lines ++ [(name, value)]) = (collect lines).insert name value := by
  have hvalue (n : String) : (lastValue? (lines ++ [(name, value)]) n).getD "" =
      if sameName name n then value else (lastValue? lines n).getD "" := by
    rw [lastValue?_concat]
    split <;> rfl
  simp only [collect, insert, firstNames_concat, hvalue]
  cases h : (firstNames lines).any (sameName name) with
  | true => rw [insertPair_map _ _ (pairwise_firstNames lines) h, if_pos rfl]
  | false =>
    rw [insertPair_map_new _ _ h, if_neg Bool.false_ne_true, List.map_append, List.map_singleton,
      sameName_iff.mpr rfl, if_pos rfl]
    congr 2
    apply List.map_congr_left
    intro n hn
    rw [Bool.eq_false_iff.mpr (List.any_eq_false.mp h n hn), if_neg Bool.false_ne_true]

lemma foldl_insert (lines : List (String × String)) :
    lines.foldl (fun attributes line => attributes.insert line.1 line.2) .empty = collect lines := by
  induction lines using List.reverseRecOn with
  | nil => rfl
  | append_singleton lines line ih => rw [List.foldl_concat, ih, collect_concat]

lemma find?_insertPair (name value other : String) (pairs : List (String × String)) :
    ((insertPair name value pairs).find? fun pair => sameName pair.1 other).map (·.2) =
      if sameName name other then some value
      else (pairs.find? fun pair => sameName pair.1 other).map (·.2) := by
  induction pairs with
  | nil =>
    rw [insertPair, List.find?_cons]
    cases sameName name other <;> rfl
  | cons pair pairs ih =>
    rw [insertPair]
    split
    · rename_i h
      rw [List.find?_cons, List.find?_cons, sameName_congr h]
      cases sameName name other <;> rfl
    · rename_i h
      rw [List.find?_cons, List.find?_cons]
      cases hp : sameName pair.1 other with
      | false => exact ih
      | true =>
        have hne : sameName name other = false := by
          rw [sameName_comm, ← sameName_congr hp]
          exact Bool.eq_false_iff.mpr h
        rw [hne]
        rfl

lemma get?_insert (a : Attributes) (name value other : String) :
    (a.insert name value).get? other = if sameName name other then some value else a.get? other :=
  find?_insertPair name value other a.pairs

lemma get?_collect (lines : List (String × String)) (name : String) :
    (collect lines).get? name = lastValue? lines name := by
  induction lines using List.reverseRecOn with
  | nil => rfl
  | append_singleton lines line ih => rw [collect_concat, get?_insert, lastValue?_concat, ih]

end JarReader.Attributes

import JarReader.Text.Segment
import Mathlib.Data.List.Chain

namespace JarReader.Text

def Apart (a b : Char) : List Char → Prop := List.IsChain fun x y => x = a → y ≠ b

section Apart

variable {a b : Char} {cs : List Char}

lemma apart_iff_not_isInfix : Apart a b cs ↔ ¬ [a, b] <:+: cs := by
  rw [Apart, List.isChain_iff_forall_rel_of_append_cons_cons]
  constructor
  · rintro h ⟨l, r, rfl⟩
    exact h (show l ++ [a, b] ++ r = l ++ a :: b :: r by simp) rfl rfl
  · rintro h x y l r rfl rfl rfl
    exact h ⟨l, r, by simp⟩

lemma Apart.of_not_mem (h : a ∉ cs ∨ b ∉ cs) : Apart a b cs := by
  rw [apart_iff_not_isInfix]
  intro hi
  have ha : a ∈ cs := hi.subset List.mem_cons_self
  have hb : b ∈ cs := hi.subset (by simp)
  tauto

lemma Apart.flatMap {f : Char → List Char} (hne : ∀ c, f c ≠ [])
    (hf : ∀ c x, x ∈ f c → x = a ∨ x = b → c = x ∧ f c = [x]) (h : Apart a b cs) :
    Apart a b (cs.flatMap f) := by
  induction cs with
  | nil => exact List.isChain_nil
  | cons c cs ih =>
    rw [List.flatMap_cons]
    refine (show Apart a b (f c) from ?_).append (ih h.tail) ?_
    · by_cases ha : a ∈ f c
      · rw [(hf c a ha (.inl rfl)).2]
        exact List.isChain_singleton a
      · exact .of_not_mem (.inl ha)
    · intro x hx y hy hxa hyb
      subst hxa hyb
      have hc := (hf c x (List.mem_of_getLast? hx) (.inl rfl)).1
      cases cs with
      | nil => cases hy
      | cons c' cs =>
        have hy' : y ∈ f c' := by
          rw [List.flatMap_cons, List.head?_append_of_ne_nil _ (hne c')] at hy
          exact List.mem_of_mem_head? hy
        have hc' := (hf c' y hy' (.inr rfl)).1
        exact h.rel hc hc'

end Apart

section Cut

variable {a b : Char} {p : List Char}

lemma cutChars_apart (h : Apart a b p) (piece : List Char) :
    cutChars [a, b] p piece = [piece.reverse ++ p] := by
  induction p generalizing piece with
  | nil => rw [cutChars, List.append_nil]
  | cons c p ih =>
    have hc : [a, b].isPrefixOf (c :: p) = false := by
      rw [Bool.eq_false_iff, ne_eq, List.isPrefixOf_iff_prefix]
      intro hp
      exact apart_iff_not_isInfix.mp h hp.isInfix
    rw [cutChars, hc, Bool.and_false, if_neg Bool.false_ne_true, ih h.tail]
    simp

lemma cutChars_append (hab : a ≠ b) (h : Apart a b p) (rest piece : List Char) :
    cutChars [a, b] (p ++ a :: b :: rest) piece =
      (piece.reverse ++ p) :: cutChars [a, b] rest [] := by
  induction p generalizing piece with
  | nil => simp [cutChars, List.isPrefixOf]
  | cons c p ih =>
    have hc : [a, b].isPrefixOf (c :: (p ++ a :: b :: rest)) = false := by
      rw [Bool.eq_false_iff, ne_eq, List.isPrefixOf_iff_prefix, List.cons_prefix_cons]
      rintro ⟨rfl, hp⟩
      cases p with
      | nil =>
        rw [List.nil_append, List.cons_prefix_cons] at hp
        exact hab hp.1.symm
      | cons x p =>
        rw [List.cons_append, List.cons_prefix_cons] at hp
        exact h.rel rfl hp.1.symm
    rw [List.cons_append, cutChars, hc, Bool.and_false, if_neg Bool.false_ne_true, ih h.tail]
    simp

lemma cutChars_intercalate (hab : a ≠ b) {ps : List (List Char)} (h : Apart a b p)
    (hps : ∀ q ∈ ps, Apart a b q) :
    cutChars [a, b] ([a, b].intercalate (p :: ps)) [] = p :: ps := by
  induction ps generalizing p with
  | nil =>
    rw [List.intercalate_singleton, cutChars_apart h, List.reverse_nil, List.nil_append]
  | cons q ps ih =>
    have hq := hps q List.mem_cons_self
    rw [List.intercalate_cons_cons, List.append_assoc, List.cons_append, List.singleton_append,
      cutChars_append hab h, ih hq fun r hr => hps r (List.mem_cons_of_mem q hr)]
    rfl

lemma cut_intercalate {separator : String} (hs : separator.toList = [a, b]) (hab : a ≠ b)
    {first : String} {others : List String} (h : Apart a b first.toList)
    (hothers : ∀ other ∈ others, Apart a b other.toList) :
    cut separator (separator.intercalate (first :: others)) = first :: others := by
  rw [cut, String.toList_intercalate, hs, List.map_cons, cutChars_intercalate hab h (by simpa)]
  simp [Function.comp_def]

end Cut

lemma stripChars?_append (start text : List Char) :
    stripChars? start (start ++ text) = some text := by
  induction start with
  | nil => cases text <;> rfl
  | cons c start ih => simpa [stripChars?] using ih

lemma strip?_append (start text : String) : strip? start (start ++ text) = some text := by
  rw [strip?, String.toList_append, stripChars?_append, Option.map_some, String.ofList_toList]

lemma stripChars?_eq_some {start text rest : List Char} (h : stripChars? start text = some rest) :
    text = start ++ rest := by
  fun_induction stripChars? start text with
  | case1 text => simpa using h
  | case2 => cases h
  | case3 c start text ih => rw [ih h, List.cons_append]
  | case4 => cases h

end JarReader.Text

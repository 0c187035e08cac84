import JarReader.Command.Glob
import Mathlib.Data.List.Forall2

namespace JarReader.Command.Glob

inductive Covers : Char → List Char → Prop
  | run (piece : List Char) : Covers '*' piece
  | one (c : Char) : Covers '?' [c]
  | same {c : Char} : c ≠ '*' → c ≠ '?' → Covers c [c]

def Cuts (pattern text : List Char) : Prop :=
  ∃ pieces : List (List Char), List.Forall₂ Covers pattern pieces ∧ pieces.flatten = text

/-- The search as it calls itself, with no answer where more than `depth` calls are open. -/
def search : (depth : Nat) → (pattern text : List Char) → Option Bool
  | 0, _, _ => none
  | _ + 1, [], [] => some true
  | depth + 1, '*' :: pattern, text =>
    match search depth pattern text with
    | some false =>
      match text with
      | [] => some false
      | _ :: text => search depth ('*' :: pattern) text
    | answer? => answer?
  | depth + 1, '?' :: pattern, _ :: text => search depth pattern text
  | depth + 1, p :: pattern, c :: text => if p = c then search depth pattern text else some false
  | _ + 1, _, _ => some false

section Cut

variable {p : Char} {pattern text : List Char}

lemma covers_star {piece : List Char} : Covers '*' piece :=
  .run piece

lemma covers_iff_of_ne {piece : List Char} (hp : p ≠ '*') :
    Covers p piece ↔ ∃ c, (p = '?' ∨ p = c) ∧ piece = [c] := by
  constructor
  · rintro (_ | c | _)
    · contradiction
    · exact ⟨c, .inl rfl, rfl⟩
    · exact ⟨p, .inr rfl, rfl⟩
  · rintro ⟨c, hc, rfl⟩
    by_cases hq : p = '?'
    · exact hq ▸ .one c
    · obtain rfl := hc.resolve_left hq
      exact .same hp hq

lemma cuts_nil : Cuts [] text ↔ text = [] := by
  simp [Cuts, eq_comm]

lemma cuts_cons :
    Cuts (p :: pattern) text ↔
      ∃ piece rest, Covers p piece ∧ Cuts pattern rest ∧ piece ++ rest = text := by
  constructor
  · rintro ⟨_, hcovers, rfl⟩
    cases hcovers with
    | @cons _ piece _ pieces hp hrest =>
      exact ⟨piece, pieces.flatten, hp, ⟨pieces, hrest, rfl⟩, rfl⟩
  · rintro ⟨piece, _, hp, ⟨pieces, hrest, rfl⟩, rfl⟩
    exact ⟨piece :: pieces, .cons hp hrest, rfl⟩

lemma someEnd_iff {accepts : List Char → Bool} :
    someEnd accepts text = true ↔ ∃ front rest, accepts rest = true ∧ front ++ rest = text := by
  induction text with
  | nil => simp [someEnd]
  | cons c text ih =>
    rw [someEnd, Bool.or_eq_true, ih]
    constructor
    · rintro (hall | ⟨front, rest, hrest, rfl⟩)
      · exact ⟨[], c :: text, hall, rfl⟩
      · exact ⟨c :: front, rest, hrest, rfl⟩
    · rintro ⟨front, rest, hrest, hfront⟩
      cases front with
      | nil =>
        left
        rwa [← hfront]
      | cons x front =>
        right
        exact ⟨front, rest, hrest, (List.cons.inj hfront).2⟩

lemma accepts_cons_nil (hp : p ≠ '*') : accepts (p :: pattern) [] = false := by
  rw [accepts]
  exact hp

lemma accepts_cons_cons (hp : p ≠ '*') (c : Char) :
    accepts (p :: pattern) (c :: text) = ((p = '?' || p = c) && accepts pattern text) := by
  rw [accepts]
  exact hp

lemma accepts_star_cons (c : Char) :
    accepts ('*' :: pattern) (c :: text) =
      (accepts pattern (c :: text) || accepts ('*' :: pattern) text) := rfl

lemma accepts_iff_cuts : accepts pattern text = true ↔ Cuts pattern text := by
  induction pattern generalizing text with
  | nil => rw [accepts, cuts_nil, List.isEmpty_iff]
  | cons p pattern ih =>
    rw [cuts_cons]
    by_cases hp : p = '*'
    · subst hp
      rw [accepts, someEnd_iff]
      simp only [covers_star, true_and, ih]
    · simp only [covers_iff_of_ne hp]
      cases text with
      | nil =>
        rw [accepts_cons_nil hp]
        simp
      | cons c text =>
        rw [accepts_cons_cons hp, Bool.and_eq_true, ih]
        constructor
        · rintro ⟨hc, hrest⟩
          exact ⟨[c], text, ⟨c, by simpa using hc, rfl⟩, hrest, rfl⟩
        · rintro ⟨_, rest, ⟨x, hx, rfl⟩, hrest, htext⟩
          obtain ⟨rfl, rfl⟩ := List.cons.inj htext
          exact ⟨by simpa using hx, hrest⟩

end Cut

section Search

variable {depth : Nat} {pattern text : List Char}

lemma accepts_star_of_accepts (h : accepts pattern text = true) :
    accepts ('*' :: pattern) text = true := by
  rw [accepts, someEnd_iff]
  exact ⟨[], text, h, rfl⟩

lemma search_eq (h : pattern.length + text.length < depth) :
    search depth pattern text = some (accepts pattern text) := by
  -- Each call drops a character of the pattern or of the text, so the depth that is left is enough for it.
  fun_induction search depth pattern text with
  | case1 => omega
  | case2 => rfl
  -- A star that stands for nothing fails in the next two cases, and only then takes a character.
  | case3 depth pattern hfirst ih =>
    simp only [List.length_cons] at h
    rw [ih (by omega)] at hfirst
    exact hfirst.symm
  | case4 depth pattern c text hfirst ih ih' =>
    simp only [List.length_cons] at h ih ih'
    rw [ih (by omega)] at hfirst
    rw [ih' (by omega), accepts_star_cons, Option.some.inj hfirst, Bool.false_or]
  | case5 depth pattern text hfirst ih =>
    simp only [List.length_cons] at h
    rw [ih (by omega)] at hfirst ⊢
    have htrue : accepts pattern text = true := by simpa using hfirst
    rw [htrue, accepts_star_of_accepts htrue]
  | case6 depth pattern c text ih =>
    simp only [List.length_cons] at h
    rw [ih (by omega), accepts_cons_cons (by decide)]
    rfl
  | case7 depth pattern c text hstar hone ih =>
    simp only [List.length_cons] at h
    rw [ih (by omega), accepts_cons_cons hstar]
    simp
  | case8 depth p pattern c text hstar hone hne =>
    have hone : p ≠ '?' := hone
    rw [accepts_cons_cons hstar]
    simp [hne, hone]
  | case9 pattern text depth hstar hnil _ hcons =>
    cases pattern with
    | nil =>
      cases text with
      | nil => exact absurd rfl (hnil rfl)
      | cons c text => rfl
    | cons p pattern =>
      cases text with
      | nil =>
        rw [accepts_cons_nil]
        rintro rfl
        exact hstar pattern rfl
      | cons c text => exact (hcons p pattern c text rfl rfl).elim

end Search

section Literal

variable {pattern text : List Char}

lemma accepts_self (pattern : List Char) : accepts pattern pattern = true := by
  induction pattern with
  | nil => rfl
  | cons p pattern ih =>
    by_cases hp : p = '*'
    · subst hp
      rw [accepts_star_cons, Bool.or_eq_true]
      right
      exact accepts_star_of_accepts ih
    · rw [accepts_cons_cons hp, ih]
      simp

lemma accepts_iff_eq (h : ∀ c ∈ pattern, c ≠ '*' ∧ c ≠ '?') :
    accepts pattern text = true ↔ text = pattern := by
  constructor
  · intro haccepts
    induction pattern generalizing text with
    | nil => simpa [accepts] using haccepts
    | cons p pattern ih =>
      obtain ⟨⟨hstar, hone⟩, hrest⟩ := List.forall_mem_cons.mp h
      cases text with
      | nil =>
        rw [accepts_cons_nil hstar] at haccepts
        cases haccepts
      | cons c text =>
        rw [accepts_cons_cons hstar, Bool.and_eq_true] at haccepts
        have hc : p = c := by simpa [hone] using haccepts.1
        rw [hc, ih hrest haccepts.2]
  · rintro rfl
    exact accepts_self text

lemma matchesText_self (text : String) : matchesText text text = true :=
  accepts_self text.toList

lemma isPattern_eq_false_iff {pattern : String} :
    isPattern pattern = false ↔ ∀ c ∈ pattern.toList, c ≠ '*' ∧ c ≠ '?' := by
  simp [isPattern]

lemma matchesText_iff_eq {pattern text : String} (h : isPattern pattern = false) :
    matchesText pattern text = true ↔ text = pattern := by
  rw [matchesText, accepts_iff_eq (isPattern_eq_false_iff.mp h), String.toList_inj]

end Literal

/-- A text is accepted exactly if it can be cut into what the characters of the pattern stand for. The search
ends with no more calls open than both have characters and one, and only a text itself is accepted where
nothing in the pattern stands for other characters. -/
theorem matchesText_exact (pattern text : String) :
    (matchesText pattern text = true ↔ Cuts pattern.toList text.toList) ∧
      (∀ depth, pattern.length + text.length < depth →
        search depth pattern.toList text.toList = some (matchesText pattern text)) ∧
      (('*' ∉ pattern.toList ∧ '?' ∉ pattern.toList) →
        (matchesText pattern text = true ↔ text = pattern)) := by
  refine ⟨accepts_iff_cuts, fun depth hdepth => ?_, fun ⟨hstar, hone⟩ => ?_⟩
  · exact search_eq hdepth
  · apply matchesText_iff_eq
    apply isPattern_eq_false_iff.mpr
    intro c hc
    exact ⟨fun he => hstar (he ▸ hc), fun he => hone (he ▸ hc)⟩

theorem matchesText_exact_starred :
    Cuts "é**?".toList "é*?".toList ∧ "é**?".length + "é*?".length < 8 ∧
      search 8 "é**?".toList "é*?".toList = some true ∧
      ('*' ∉ "é".toList ∧ '?' ∉ "é".toList) ∧ (matchesText "é" "?" = true ↔ "?" = "é") := by
  have hdepth : "é**?".length + "é*?".length < 8 := by decide
  have hplain : '*' ∉ "é".toList ∧ '?' ∉ "é".toList := by decide
  have haccepts : matchesText "é**?" "é*?" = true := by decide
  obtain ⟨hcuts, hsearch, _⟩ := matchesText_exact "é**?" "é*?"
  obtain ⟨_, _, hliteral⟩ := matchesText_exact "é" "?"
  refine ⟨hcuts.mp haccepts, hdepth, ?_, hplain, hliteral hplain⟩
  rw [hsearch 8 hdepth, haccepts]

end JarReader.Command.Glob

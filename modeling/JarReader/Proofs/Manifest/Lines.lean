import JarReader.Manifest
import JarReader.Proofs.Text.Pieces
import Mathlib.Data.List.Basic

namespace JarReader.Manifest

inductive LineEnd
  | lf
  | crlf
  deriving DecidableEq, Repr

def LineEnd.text : LineEnd → String
  | lf => "\n"
  | crlf => "\r\n"

lemma LineEnd.text_ne (e : LineEnd) : e.text ≠ "" := by
  cases e <;> decide

inductive Broken (α : Type)
  | last (piece : α)
  | more (piece : α) (lineEnd : LineEnd) (rest : Broken α)

namespace Broken

variable {α β : Type}

def pieces : Broken α → List α
  | last piece => [piece]
  | more piece _ rest => piece :: rest.pieces

def map (f : α → β) : Broken α → Broken β
  | last piece => last (f piece)
  | more piece e rest => more (f piece) e (rest.map f)

def joined [Append α] : Broken α → α
  | last piece => piece
  | more piece _ rest => piece ++ rest.joined

/-- The value with a line end and one space wherever it is broken. -/
def written [Append α] (literal : String → α) : Broken α → α
  | last piece => piece
  | more piece e rest => piece ++ (literal (e.text ++ " ") ++ rest.written literal)

lemma joined_bytes (v : Broken ByteArray) : v.joined = Text.joined v.pieces := by
  induction v with
  | last piece => exact ByteArray.append_empty.symm
  | more piece e rest ih => rw [joined, ih, pieces, Text.joined_cons]

lemma joined_map (f : α → String) (v : Broken α) :
    (v.map f).joined = String.join (v.pieces.map f) := by
  induction v with
  | last piece => simp [map, joined, pieces]
  | more piece e rest ih => rw [map, joined, ih, pieces, List.map_cons, String.join_cons]

lemma pieces_map (f : α → β) (v : Broken α) : (v.map f).pieces = v.pieces.map f := by
  induction v with
  | last piece => rfl
  | more piece e rest ih => rw [map, pieces, ih, pieces, List.map_cons]

lemma mem_joined {v : Broken String} {c : Char} :
    c ∈ v.joined.toList ↔ ∃ piece ∈ v.pieces, c ∈ piece.toList := by
  induction v with
  | last piece => simp [joined, pieces]
  | more piece e rest ih => simp [joined, pieces, ih]

end Broken

section Lines

lemma dropEnd_cons_congr {p : Char → Bool} {c : Char} {xs ys : List Char}
    (h : Text.dropEnd p xs = Text.dropEnd p ys) :
    Text.dropEnd p (c :: xs) = Text.dropEnd p (c :: ys) := by
  have hd : xs.reverse.dropWhile p = ys.reverse.dropWhile p := List.reverse_injective h
  rw [Text.dropEnd, Text.dropEnd, List.reverse_cons, List.reverse_cons, List.dropWhile_append,
    List.dropWhile_append, hd]

lemma dropWhile_of_head? {p : Char → Bool} {cs : List Char} (h : cs.head?.any p = false) :
    cs.dropWhile p = cs := by
  cases cs with
  | nil => rfl
  | cons c cs => rw [List.dropWhile_cons, show p c = false from h, if_neg Bool.false_ne_true]

lemma dropEnd_of_getLast? {p : Char → Bool} {cs : List Char} (h : cs.getLast?.any p = false) :
    Text.dropEnd p cs = cs := by
  rw [← List.head?_reverse] at h
  rw [Text.dropEnd, dropWhile_of_head? h, List.reverse_reverse]

lemma trim_of_ends {text : String} (hhead : text.toList.head?.any Text.isBlank = false)
    (hlast : text.toList.getLast?.any Text.isBlank = false) : Text.trim text = text := by
  rw [Text.trim, dropWhile_of_head? hhead, dropEnd_of_getLast? hlast, String.ofList_toList]

lemma map_dropEnd_splitOn_concat (xs : List Char) :
    ((xs ++ ['\r']).splitOn '\n').map (Text.dropEnd (· = '\r')) =
      (xs.splitOn '\n').map (Text.dropEnd (· = '\r')) := by
  induction xs with
  | nil => rfl
  | cons x xs ih =>
    rw [List.cons_append, List.splitOn_cons_eq_if_modifyHead, List.splitOn_cons_eq_if_modifyHead]
    obtain ⟨y, ys, hy⟩ := List.exists_cons_of_ne_nil (List.splitOn_ne_nil '\n' (xs ++ ['\r']))
    obtain ⟨z, zs, hz⟩ := List.exists_cons_of_ne_nil (List.splitOn_ne_nil '\n' xs)
    rw [hy, hz, List.map_cons, List.map_cons, List.cons.injEq] at ih
    split
    · rw [hy, hz, List.map_cons, List.map_cons, List.map_cons, List.map_cons, ih.1, ih.2]
    · rw [hy, hz, List.modifyHead_cons, List.modifyHead_cons, List.map_cons, List.map_cons,
        dropEnd_cons_congr ih.1, ih.2]

lemma linesOf_append (x : String) (e : LineEnd) (y : String) :
    linesOf (x ++ e.text ++ y) = (linesOf x).dropLast ++ linesOf y := by
  simp only [linesOf, List.dropLast_concat, ← List.append_assoc, ← List.map_append]
  congr 1
  cases e with
  | lf =>
    have ht : (x ++ "\n" ++ y).toList = x.toList ++ '\n' :: y.toList := by simp
    rw [LineEnd.text, ht, List.splitOn_append_cons_self]
  | crlf =>
    have ht : (x ++ "\r\n" ++ y).toList = x.toList ++ ['\r'] ++ '\n' :: y.toList := by simp
    rw [LineEnd.text, ht, List.splitOn_append_cons_self, List.map_append, List.map_append,
      map_dropEnd_splitOn_concat]

lemma linesOf_line {line : String} (hlf : '\n' ∉ line.toList)
    (hcr : line.toList.getLast? ≠ some '\r') (e : LineEnd) (rest : String) :
    linesOf (line ++ e.text ++ rest) = line.toList :: linesOf rest := by
  have hd : Text.dropEnd (· = '\r') line.toList = line.toList := by
    apply dropEnd_of_getLast?
    rw [Option.any_eq_false]
    intro c hc
    rw [decide_eq_false_iff_not]
    rintro rfl
    exact hcr hc
  rw [linesOf_append, linesOf, List.dropLast_concat, List.splitOn_eq_singleton hlf,
    List.map_singleton, hd, List.singleton_append]

lemma linesOf_blank (e : LineEnd) (rest : String) : linesOf (e.text ++ rest) = [] :: linesOf rest :=
  @linesOf_line "" (by simp) (by simp) e rest

end Lines

structure IsName (name : String) : Prop where
  no_colon : ':' ∉ name.toList
  no_lineEnd : '\n' ∉ name.toList
  no_space : name.toList.head? ≠ some ' '

namespace Draft

variable (s : Draft)

def between (main? : Option Attributes) (sections : List (String × Attributes)) : Draft :=
  ⟨main?, sections, .empty, none⟩

lemma start_eq : start = between none [] := rfl

lemma settle_eq : s.settle = ⟨s.main?, s.sections, s.settle.current, none⟩ := by
  rcases s with ⟨main?, sections, current, _ | ⟨name, value⟩⟩ <;> rfl

lemma addLine_nil : s.addLine [] = s.settle.close := rfl

lemma addLine_nil_between (main : Attributes) (sections : List (String × Attributes)) :
    (between (some main) sections).addLine [] = between (some main) sections := rfl

lemma addLine_nil_eq_between : ∃ main sections, s.addLine [] = between (some main) sections := by
  rcases s with ⟨_ | main, sections, current, _ | ⟨name, value⟩⟩
  · exact ⟨current, sections, rfl⟩
  · exact ⟨current.insert name value, sections, rfl⟩
  all_goals
    simp only [addLine_nil, settle, close]
    split
    · exact ⟨_, _, rfl⟩
    · exact ⟨_, _, rfl⟩

lemma addLine_nil_nil : (s.addLine []).addLine [] = s.addLine [] := by
  obtain ⟨main, sections, h⟩ := s.addLine_nil_eq_between
  rw [h, addLine_nil_between]

lemma addLine_goesOn (main? : Option Attributes) (sections : List (String × Attributes))
    (current : Attributes) (name value piece : String) :
    addLine ⟨main?, sections, current, some (name, value)⟩ (" " ++ piece).toList =
      ⟨main?, sections, current, some (name, value ++ piece)⟩ := by
  have ht : (" " ++ piece).toList = ' ' :: piece.toList := by simp
  rw [ht, addLine, extend, String.ofList_toList]

lemma addLine_attribute {line : List Char} (hne : line ≠ []) (hspace : line.head? ≠ some ' ') :
    s.addLine line = { s.settle with pending? := attribute? line } := by
  rw [addLine]
  · rintro more rfl
    exact hspace rfl
  · exact hne

variable {s} {name : String}

lemma attribute?_eq (hcolon : ':' ∉ name.toList) (value : String) :
    attribute? (name ++ ": " ++ value).toList = some (Text.trim name, value) := by
  have ht : (name ++ ": " ++ value).toList = name.toList ++ ':' :: ' ' :: value.toList := by simp
  have hname : ∀ c ∈ name.toList, decide (c ≠ ':') = true := by
    intro c hc
    rw [decide_eq_true_iff]
    rintro rfl
    exact hcolon hc
  rw [attribute?, ht, List.dropWhile_append_of_pos hname, List.takeWhile_append_of_pos hname,
    List.dropWhile_cons_of_neg (by simp), List.takeWhile_cons_of_neg (by simp), List.append_nil]
  simp

lemma addLine_name (s : Draft) {name : String} (hname : IsName name) (value : String) :
    s.addLine (name ++ ": " ++ value).toList =
      { s.settle with pending? := some (Text.trim name, value) } := by
  rw [addLine_attribute, attribute?_eq hname.no_colon]
  · simp
  · have hspace := hname.no_space
    rw [String.toList_append, String.toList_append, List.append_assoc, List.head?_append]
    cases h : name.toList.head? with
    | none => simp
    | some c => simpa [h] using hspace

end Draft

section Attribute

def OnOneLine (text : String) : Prop := '\n' ∉ text.toList ∧ '\r' ∉ text.toList

instance : DecidablePred OnOneLine := fun _ => instDecidableAnd

lemma linesOf_value {head piece : String} (hhead : '\n' ∉ head.toList)
    (hspace : head.toList.getLast? = some ' ') (hp : OnOneLine piece) (e : LineEnd) (rest : String) :
    linesOf (head ++ piece ++ e.text ++ rest) = (head ++ piece).toList :: linesOf rest := by
  apply linesOf_line
  · rw [String.toList_append, List.mem_append, not_or]
    exact ⟨hhead, hp.1⟩
  · rw [String.toList_append, List.getLast?_append, hspace]
    intro h
    cases hl : piece.toList.getLast? with
    | none => simp [hl] at h
    | some c =>
      simp only [hl, Option.some_or, Option.some.injEq] at h
      subst h
      exact hp.2 (List.mem_of_getLast? hl)

lemma foldl_written {v : Broken String} (hv : ∀ piece ∈ v.pieces, OnOneLine piece) {head : String}
    (hhead : '\n' ∉ head.toList) (hspace : head.toList.getLast? = some ' ') {s : Draft}
    {main? : Option Attributes} {sections : List (String × Attributes)} {current : Attributes}
    {name value : String}
    (hadd : ∀ piece, s.addLine (head ++ piece).toList =
      ⟨main?, sections, current, some (name, value ++ piece)⟩) (e : LineEnd) (rest : String) :
    (linesOf (head ++ v.written id ++ e.text ++ rest)).foldl Draft.addLine s =
      (linesOf rest).foldl Draft.addLine
        ⟨main?, sections, current, some (name, value ++ v.joined)⟩ := by
  induction v generalizing head s value with
  | last piece =>
    have hp := hv piece List.mem_cons_self
    rw [Broken.written, linesOf_value hhead hspace hp, List.foldl_cons, hadd, Broken.joined]
  | more piece e' v ih =>
    have hp := hv piece List.mem_cons_self
    have hrest := fun q hq => hv q (List.mem_cons_of_mem piece hq)
    have ht : head ++ (piece ++ (e'.text ++ " " ++ v.written id)) ++ e.text ++ rest =
        head ++ piece ++ e'.text ++ (" " ++ v.written id ++ e.text ++ rest) := by
      simp only [String.append_assoc]
    rw [Broken.written, id, ht, linesOf_value hhead hspace hp, List.foldl_cons, hadd,
      ih hrest (by simp) (by simp) (Draft.addLine_goesOn _ _ _ _ _), Broken.joined,
      String.append_assoc]

lemma foldl_attribute {name : String} (hname : IsName name) {v : Broken String}
    (hv : ∀ piece ∈ v.pieces, OnOneLine piece) (e : LineEnd) (rest : String) (s : Draft) :
    (linesOf (name ++ ": " ++ v.written id ++ e.text ++ rest)).foldl Draft.addLine s =
      (linesOf rest).foldl Draft.addLine
        ⟨s.main?, s.sections, s.settle.current, some (Text.trim name, v.joined)⟩ := by
  have hhead : '\n' ∉ (name ++ ": ").toList := by
    simpa using hname.no_lineEnd
  have hadd (piece : String) : s.addLine (name ++ ": " ++ piece).toList =
      ⟨s.main?, s.sections, s.settle.current, some (Text.trim name, "" ++ piece)⟩ := by
    rw [s.addLine_name hname, s.settle_eq, String.empty_append]
  have hfold := foldl_written hv hhead (by simp) hadd e rest
  rwa [String.empty_append] at hfold

end Attribute

section Ending

lemma parse_append_lineEnd (bytes : ByteArray) (e : LineEnd) :
    parse (bytes ++ e.text.toUTF8) = parse bytes := by
  have ht : Text.ofBytes (bytes ++ e.text.toUTF8) = Text.ofBytes bytes ++ e.text ++ "" := by
    have ha := Text.ofBytes_around e.text_ne bytes .empty
    rw [ByteArray.append_empty] at ha
    rw [ha, String.append_assoc]
    rfl
  have hlines : linesOf (Text.ofBytes bytes ++ e.text ++ "") =
      linesOf (Text.ofBytes bytes) ++ [[]] := by
    rw [linesOf_append, linesOf, List.dropLast_concat, List.append_assoc]
    rfl
  rw [parse, parse, ht, hlines, List.foldl_concat, linesOf, List.foldl_concat,
    Draft.addLine_nil_nil]

/-- The same bytes, but that the end of the last line may be left out. -/
def UpToLineEnd (bytes whole : ByteArray) : Prop :=
  bytes = whole ∨ ∃ e : LineEnd, bytes ++ e.text.toUTF8 = whole

lemma UpToLineEnd.parse_eq {bytes whole : ByteArray} (h : UpToLineEnd bytes whole) :
    parse bytes = parse whole := by
  rcases h with rfl | ⟨e, rfl⟩
  · rfl
  · exact (parse_append_lineEnd bytes e).symm

end Ending

end JarReader.Manifest

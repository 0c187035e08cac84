import JarReader.Proofs.Manifest.Attributes
import JarReader.Proofs.Manifest.Lines

namespace JarReader.Manifest

open Attributes

structure WrittenAttribute where
  name : String
  value : Broken String
  lineEnd : LineEnd

namespace WrittenAttribute

variable (a : WrittenAttribute)

def text : String := a.name ++ ": " ++ a.value.written id ++ a.lineEnd.text

def line : String × String := (a.name, a.value.joined)

structure WellFormed : Prop where
  no_colon : ':' ∉ a.name.toList
  no_lineEnd : '\n' ∉ a.name.toList
  head_not_blank : a.name.toList.head?.any Text.isBlank = false
  last_not_blank : a.name.toList.getLast?.any Text.isBlank = false
  value_onOneLine : OnOneLine a.value.joined

instance : Decidable a.WellFormed :=
  decidable_of_iff (':' ∉ a.name.toList ∧ '\n' ∉ a.name.toList ∧
      a.name.toList.head?.any Text.isBlank = false ∧
      a.name.toList.getLast?.any Text.isBlank = false ∧ OnOneLine a.value.joined)
    ⟨fun ⟨h₁, h₂, h₃, h₄, h₅⟩ => ⟨h₁, h₂, h₃, h₄, h₅⟩,
      fun ⟨h₁, h₂, h₃, h₄, h₅⟩ => ⟨h₁, h₂, h₃, h₄, h₅⟩⟩

end WrittenAttribute

structure WrittenSection where
  attributes : List WrittenAttribute
  blanks : List LineEnd

namespace WrittenSection

variable (w : WrittenSection)

def text : String :=
  String.join (w.attributes.map (·.text)) ++ String.join (w.blanks.map (·.text))

def lines : List (String × String) := w.attributes.map (·.line)

/-- What is kept of a section other than the first: nothing without an attribute `Name`. -/
def keyed : Option (String × Attributes) :=
  (lastValue? w.lines "Name").map fun name => (name, collect w.lines)

end WrittenSection

def Separated (ws : List WrittenSection) : Prop := ∀ w ∈ ws.dropLast, w.blanks ≠ []

structure WrittenManifest where
  main : WrittenSection
  sections : List WrittenSection

namespace WrittenManifest

variable (m : WrittenManifest)

def text : String := m.main.text ++ String.join (m.sections.map (·.text))

structure WellFormed : Prop where
  attributes : ∀ w ∈ m.main :: m.sections, ∀ a ∈ w.attributes, a.WellFormed
  separated : Separated (m.main :: m.sections)

instance : Decidable m.WellFormed :=
  decidable_of_iff ((∀ w ∈ m.main :: m.sections, ∀ a ∈ w.attributes, a.WellFormed) ∧
      ∀ w ∈ (m.main :: m.sections).dropLast, w.blanks ≠ [])
    ⟨fun ⟨h₁, h₂⟩ => ⟨h₁, h₂⟩, fun ⟨h₁, h₂⟩ => ⟨h₁, h₂⟩⟩

end WrittenManifest

lemma OnOneLine.pieces {v : Broken String} (h : OnOneLine v.joined) :
    ∀ piece ∈ v.pieces, OnOneLine piece := by
  intro piece hp
  exact ⟨fun hc => h.1 (Broken.mem_joined.mpr ⟨piece, hp, hc⟩),
    fun hc => h.2 (Broken.mem_joined.mpr ⟨piece, hp, hc⟩)⟩

lemma WrittenAttribute.WellFormed.isName {a : WrittenAttribute} (h : a.WellFormed) :
    IsName a.name where
  no_colon := h.no_colon
  no_lineEnd := h.no_lineEnd
  no_space := by
    intro hs
    have hblank := h.head_not_blank
    rw [hs] at hblank
    cases hblank

lemma foldl_attributes {attributes : List WrittenAttribute} (h : ∀ a ∈ attributes, a.WellFormed)
    (rest : String) (s : Draft) :
    ∃ s' : Draft,
      (linesOf (String.join (attributes.map (·.text)) ++ rest)).foldl Draft.addLine s =
        (linesOf rest).foldl Draft.addLine s' ∧
      s'.settle = ⟨s.main?, s.sections,
        (attributes.map (·.line)).foldl (fun found line => found.insert line.1 line.2)
          s.settle.current, none⟩ := by
  induction attributes generalizing s with
  | nil =>
    refine ⟨s, ?_, s.settle_eq⟩
    rw [List.map_nil, String.join_nil, String.empty_append]
  | cons a attributes ih =>
    have ha := h a List.mem_cons_self
    obtain ⟨s', hfold, hs'⟩ := ih (fun b hb => h b (List.mem_cons_of_mem a hb))
      ⟨s.main?, s.sections, s.settle.current, some (a.name, a.value.joined)⟩
    refine ⟨s', ?_, hs'⟩
    rw [List.map_cons, String.join_cons, WrittenAttribute.text, String.append_assoc,
      foldl_attribute ha.isName ha.value_onOneLine.pieces,
      trim_of_ends ha.head_not_blank ha.last_not_blank, hfold]

lemma foldl_blanks (blanks : List LineEnd) (rest : String) {s : Draft} (h : s.addLine [] = s) :
    (linesOf (String.join (blanks.map (·.text)) ++ rest)).foldl Draft.addLine s =
      (linesOf rest).foldl Draft.addLine s := by
  induction blanks with
  | nil => rw [List.map_nil, String.join_nil, String.empty_append]
  | cons e blanks ih =>
    rw [List.map_cons, String.join_cons, String.append_assoc, linesOf_blank, List.foldl_cons, h, ih]

lemma foldl_section {w : WrittenSection} (h : ∀ a ∈ w.attributes, a.WellFormed) {rest : String}
    (hrest : w.blanks = [] → rest = "") (main? : Option Attributes)
    (sections : List (String × Attributes)) :
    (linesOf (w.text ++ rest)).foldl Draft.addLine (.between main? sections) =
      (linesOf rest).foldl Draft.addLine (Draft.close ⟨main?, sections, collect w.lines, none⟩) := by
  obtain ⟨s, hfold, hs⟩ := foldl_attributes h
    (String.join (w.blanks.map (·.text)) ++ rest) (.between main? sections)
  have hclose : Draft.close ⟨main?, sections, collect w.lines, none⟩ = s.addLine [] := by
    rw [Draft.addLine_nil, hs, ← foldl_insert]
    rfl
  rw [WrittenSection.text, String.append_assoc, hfold, hclose]
  cases hb : w.blanks with
  | nil =>
    rw [hrest hb]
    exact congrArg (Draft.addLine · []) s.addLine_nil_nil.symm
  | cons e blanks =>
    rw [List.map_cons, String.join_cons, String.append_assoc, linesOf_blank, List.foldl_cons,
      foldl_blanks blanks rest s.addLine_nil_nil]

lemma close_keyed (main : Attributes) (sections : List (String × Attributes)) (w : WrittenSection) :
    Draft.close ⟨some main, sections, collect w.lines, none⟩ =
      .between (some main) (w.keyed.toList ++ sections) := by
  rw [Draft.close, get?_collect, WrittenSection.keyed]
  cases lastValue? w.lines "Name" with
  | none => rfl
  | some name => rfl

namespace Separated

variable {w : WrittenSection} {ws : List WrittenSection}

lemma rest_eq (h : Separated (w :: ws)) (hw : w.blanks = []) :
    String.join (ws.map (·.text)) = "" := by
  cases ws with
  | nil => rfl
  | cons next ws => exact absurd hw (h w List.mem_cons_self)

lemma tail (h : Separated (w :: ws)) : Separated ws := by
  intro x hx
  apply h
  cases ws with
  | nil => cases hx
  | cons next ws => exact List.mem_cons_of_mem w hx

end Separated

lemma foldl_sections {ws : List WrittenSection} (h : ∀ w ∈ ws, ∀ a ∈ w.attributes, a.WellFormed)
    (hs : Separated ws) (main : Attributes) (sections : List (String × Attributes)) :
    (linesOf (String.join (ws.map (·.text)))).foldl Draft.addLine (.between (some main) sections) =
      .between (some main) ((ws.filterMap (·.keyed)).reverse ++ sections) := by
  induction ws generalizing sections with
  | nil => rfl
  | cons w ws ih =>
    rw [List.map_cons, String.join_cons, foldl_section (h w List.mem_cons_self) hs.rest_eq,
      close_keyed, ih (fun x hx => h x (List.mem_cons_of_mem w hx)) hs.tail, List.filterMap_cons]
    cases w.keyed with
    | none => rfl
    | some pair => simp

lemma parse_text {m : WrittenManifest} (h : m.WellFormed) :
    parse m.text.toUTF8 = ⟨collect m.main.lines, m.sections.filterMap (·.keyed)⟩ := by
  have hmain := h.attributes m.main List.mem_cons_self
  have hsections := fun w hw => h.attributes w (List.mem_cons_of_mem m.main hw)
  have hclose : Draft.close ⟨none, [], collect m.main.lines, none⟩ =
      .between (some (collect m.main.lines)) [] := rfl
  rw [parse, Text.ofBytes_toUTF8, WrittenManifest.text, Draft.start_eq,
    foldl_section hmain h.separated.rest_eq, hclose, foldl_sections hsections h.separated.tail]
  simp [Draft.finish, Draft.between]

theorem parse_written {m : WrittenManifest} (h : m.WellFormed) {bytes : ByteArray}
    (hb : UpToLineEnd bytes m.text.toUTF8) :
    parse bytes = ⟨collect m.main.lines, m.sections.filterMap (·.keyed)⟩ ∧
      (∀ name, (parse bytes).main.get? name = lastValue? m.main.lines name) ∧
      ∀ w ∈ m.sections, ∀ name, (collect w.lines).get? name = lastValue? w.lines name := by
  have hparse := hb.parse_eq.trans (parse_text h)
  refine ⟨hparse, fun name => ?_, fun w _ name => get?_collect w.lines name⟩
  rw [hparse, get?_collect]

def foldedManifest : WrittenManifest where
  main := ⟨[⟨"Manifest-Version", .last "1.0", .crlf⟩,
    ⟨"Class-Path", .more "lib/one.jar lib/tw" .lf (.more "o" .crlf (.last ".jar é")), .lf⟩,
    ⟨"manifest-version", .last "2.0", .lf⟩], [.lf, .crlf]⟩
  sections := [⟨[⟨"Sealed", .last "true", .lf⟩], [.crlf]⟩,
    ⟨[⟨"NAME", .last "a", .lf⟩, ⟨"Name", .more "com/" .crlf (.last "b/"), .crlf⟩], []⟩]

theorem parse_written_foldedManifest :
    parse ("Manifest-Version: 1.0\r\nClass-Path: lib/one.jar lib/tw\n o\r\n .jar é\n" ++
        "manifest-version: 2.0\n\n\r\nSealed: true\n\r\nNAME: a\nName: com/\r\n b/").toUTF8 =
      ⟨⟨[("Manifest-Version", "2.0"), ("Class-Path", "lib/one.jar lib/two.jar é")]⟩,
        [("com/b/", ⟨[("NAME", "com/b/")]⟩)]⟩ := by
  refine (parse_written (show foldedManifest.WellFormed by decide) (.inr ⟨.crlf, ?_⟩)).1.trans ?_
  · rw [← Text.toUTF8_append]
    exact congrArg String.toUTF8 (by decide)
  · simp only [collect, firstNames, WrittenSection.keyed, lastValue?, sameName_eq]
    decide

end JarReader.Manifest

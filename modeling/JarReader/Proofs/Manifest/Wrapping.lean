import JarReader.Proofs.Manifest.Lines

/-! Breaking the values of a manifest after any number of bytes. As the pieces of a value become text
one by one, what is parsed is the same only where no character is broken. -/

namespace JarReader.Manifest

inductive Line
  | named (name : ByteArray) (value : Broken ByteArray) (lineEnd : LineEnd)
  | other (content : ByteArray) (lineEnd : LineEnd)

namespace Line

def bytes : Line → ByteArray
  | named name value e =>
    name ++ (": ".toUTF8 ++ (value.written String.toUTF8 ++ e.text.toUTF8))
  | other content e => content ++ e.text.toUTF8

def unbroken : Line → Line
  | named name value e => named name (.last value.joined) e
  | other content e => other content e

/-- The value on one line, as the text that its pieces are read as one by one. -/
def asRead : Line → Line
  | named name value e => named name (.last (value.map Text.ofBytes).joined.toUTF8) e
  | other content e => other content e

def WellFormed : Line → Prop
  | named name value _ =>
    IsName (Text.ofBytes name) ∧ ∃ text : String, OnOneLine text ∧ value.joined = text.toUTF8
  | other _ _ => True

def KeepsCharacters : Line → Prop
  | named _ value _ => ∀ piece ∈ value.pieces, piece.IsValidUTF8
  | other _ _ => True

end Line

def bytesOf (lines : List Line) : ByteArray :=
  lines.foldr (fun line rest => line.bytes ++ rest) .empty

section Read

variable {name : ByteArray} {value : Broken ByteArray}

lemma ofBytes_written {literal : String} (h : literal ≠ "") (v : Broken ByteArray)
    (rest : ByteArray) :
    Text.ofBytes (v.written String.toUTF8 ++ (literal.toUTF8 ++ rest)) =
      (v.map Text.ofBytes).written id ++ (literal ++ Text.ofBytes rest) := by
  induction v with
  | last piece => exact Text.ofBytes_around h piece rest
  | more piece e v ih =>
    have hbreak : e.text ++ " " ≠ "" := by simp
    rw [Broken.written, ByteArray.append_assoc, ByteArray.append_assoc,
      Text.ofBytes_around hbreak, ih, Broken.map, Broken.written]
    simp only [id, String.append_assoc]

lemma ofBytes_named (name : ByteArray) (v : Broken ByteArray) (e : LineEnd)
    (rest : ByteArray) :
    Text.ofBytes ((Line.named name v e).bytes ++ rest) =
      Text.ofBytes name ++ ": " ++ (v.map Text.ofBytes).written id ++ e.text ++
        Text.ofBytes rest := by
  rw [Line.bytes]
  simp only [ByteArray.append_assoc]
  rw [Text.ofBytes_around (by decide), ofBytes_written e.text_ne]
  simp only [String.append_assoc]

lemma ofBytes_other (content : ByteArray) (e : LineEnd) (rest : ByteArray) :
    Text.ofBytes ((Line.other content e).bytes ++ rest) =
      Text.ofBytes content ++ e.text ++ Text.ofBytes rest := by
  rw [Line.bytes, ByteArray.append_assoc, Text.ofBytes_around e.text_ne, String.append_assoc]

lemma not_mem_ofBytes {c : Char} (hc : c.toNat < 128) {text : String} (ht : c ∉ text.toList)
    {pieces : List ByteArray} (h : Text.joined pieces = text.toUTF8) {piece : ByteArray}
    (hp : piece ∈ pieces) : c ∉ (Text.ofBytes piece).toList := by
  intro hmem
  have hx : UInt8.ofNat c.toNat ∈ text.toUTF8.data.toList := by
    rw [← h]
    exact Text.mem_joined hp (Text.mem_ofBytes hc hmem)
  rw [Text.bytes_toUTF8, List.mem_flatMap] at hx
  obtain ⟨d, hd, hx⟩ := hx
  have hn : (UInt8.ofNat c.toNat).toNat = c.toNat :=
    UInt8.toNat_ofNat_of_lt' (show c.toNat < 256 by omega)
  obtain ⟨he, _⟩ := Text.utf8EncodeChar_of_mem hx (by omega)
  rw [hn] at he
  exact ht (Char.toNat_inj.mp he ▸ hd)

lemma onOneLine_pieces {text : String} (ht : OnOneLine text) (h : value.joined = text.toUTF8) :
    ∀ piece ∈ (value.map Text.ofBytes).pieces, OnOneLine piece := by
  rw [Broken.joined_bytes] at h
  rw [Broken.pieces_map]
  intro piece hpiece
  obtain ⟨p, hp, rfl⟩ := List.mem_map.mp hpiece
  exact ⟨not_mem_ofBytes (by decide) ht.1 h hp, not_mem_ofBytes (by decide) ht.2 h hp⟩

lemma onOneLine_joined {v : Broken String} (h : ∀ piece ∈ v.pieces, OnOneLine piece) :
    OnOneLine v.joined := by
  constructor
  · intro hc
    obtain ⟨piece, hp, hmem⟩ := Broken.mem_joined.mp hc
    exact (h piece hp).1 hmem
  · intro hc
    obtain ⟨piece, hp, hmem⟩ := Broken.mem_joined.mp hc
    exact (h piece hp).2 hmem

end Read

lemma foldl_asRead {lines : List Line} (h : ∀ line ∈ lines, line.WellFormed) (s : Draft) :
    (linesOf (Text.ofBytes (bytesOf lines))).foldl Draft.addLine s =
      (linesOf (Text.ofBytes (bytesOf (lines.map Line.asRead)))).foldl Draft.addLine s := by
  induction lines generalizing s with
  | nil => rfl
  | cons line lines ih =>
    have hrest := ih fun l hl => h l (List.mem_cons_of_mem line hl)
    have hline := h line List.mem_cons_self
    rw [List.map_cons, bytesOf, bytesOf, List.foldr_cons, List.foldr_cons, ← bytesOf, ← bytesOf]
    cases line with
    | named name value e =>
      obtain ⟨hname, text, ht, hvalue⟩ := hline
      have hpieces := onOneLine_pieces ht hvalue
      have hread : ∀ piece ∈ (Broken.last (value.map Text.ofBytes).joined).pieces,
          OnOneLine piece := by
        intro piece hp
        obtain rfl := List.mem_singleton.mp hp
        exact onOneLine_joined hpieces
      rw [ofBytes_named, foldl_attribute hname hpieces, hrest, Line.asRead, ofBytes_named,
        Broken.map, Text.ofBytes_toUTF8, foldl_attribute hname hread]
      rfl
    | other content e =>
      rw [Line.asRead, ofBytes_other, ofBytes_other, linesOf_append, linesOf_append,
        List.foldl_append, List.foldl_append, hrest]

lemma parse_asRead {lines : List Line} (h : ∀ line ∈ lines, line.WellFormed) :
    parse (bytesOf lines) = parse (bytesOf (lines.map Line.asRead)) := by
  rw [parse, parse, foldl_asRead h]

lemma asRead_eq_unbroken_iff {line : Line} (h : line.WellFormed) :
    line.asRead = line.unbroken ↔ line.KeepsCharacters := by
  cases line with
  | named name value e =>
    obtain ⟨_, text, _, hvalue⟩ := h
    have hiff := Text.join_ofBytes_eq_iff ((Broken.joined_bytes value).symm.trans hvalue)
    rw [← Broken.joined_map] at hiff
    rw [Line.asRead, Line.unbroken, Line.KeepsCharacters, ← hiff, hvalue, Line.named.injEq,
      Broken.last.injEq]
    simp only [true_and, and_true]
    exact ⟨fun he => String.toByteArray_inj.mp he, fun he => congrArg String.toUTF8 he⟩
  | other content e => exact ⟨fun _ => trivial, fun _ => rfl⟩

/-- What is parsed are the values as read, and they are the values themselves just where no break is
within a character. -/
theorem parse_wrapped {lines : List Line} (h : ∀ line ∈ lines, line.WellFormed)
    {wrapped plain : ByteArray} (hwrapped : UpToLineEnd wrapped (bytesOf lines))
    (hplain : UpToLineEnd plain (bytesOf (lines.map Line.unbroken))) :
    parse wrapped = parse (bytesOf (lines.map Line.asRead)) ∧
      (∀ line ∈ lines, line.asRead = line.unbroken ↔ line.KeepsCharacters) ∧
      ((∀ line ∈ lines, line.KeepsCharacters) → parse wrapped = parse plain) := by
  have hread : parse wrapped = parse (bytesOf (lines.map Line.asRead)) :=
    hwrapped.parse_eq.trans (parse_asRead h)
  refine ⟨hread, fun line hl => asRead_eq_unbroken_iff (h line hl), fun hk => ?_⟩
  have hmap : lines.map Line.asRead = lines.map Line.unbroken := by
    apply List.map_congr_left
    intro line hl
    exact (asRead_eq_unbroken_iff (h line hl)).mpr (hk line hl)
  rw [hread, hmap, hplain.parse_eq]

def wrappedLines : List Line :=
  [.named "Created-By".toUTF8
      (.more "caf".toUTF8 .crlf (.more "é".toUTF8 .lf (.last " au lait".toUTF8))) .lf,
    .other .empty .crlf,
    .named "Name".toUTF8 (.last "a/".toUTF8) .lf]

theorem parse_wrapped_wrappedLines :
    parse "Created-By: caf\r\n é\n  au lait\n\r\nName: a/".toUTF8 =
      parse "Created-By: café au lait\n\r\nName: a/\n".toUTF8 := by
  have h : ∀ line ∈ wrappedLines, line.WellFormed := by
    simp only [wrappedLines, List.forall_mem_cons]
    refine ⟨⟨?_, "café au lait", by decide, by decide⟩, trivial, ⟨?_, "a/", by decide, by decide⟩,
      nofun⟩
    · rw [Text.ofBytes_toUTF8]
      exact ⟨by decide, by decide, by decide⟩
    · rw [Text.ofBytes_toUTF8]
      exact ⟨by decide, by decide, by decide⟩
  have hk : ∀ line ∈ wrappedLines, line.KeepsCharacters := by
    simp only [wrappedLines, List.forall_mem_cons]
    refine ⟨?_, trivial, ?_, nofun⟩
    · unfold Line.KeepsCharacters
      decide
    · unfold Line.KeepsCharacters
      decide
  exact (parse_wrapped h (.inr ⟨.lf, by decide⟩) (.inl (by decide))).2.2 hk

def splitLine : Line :=
  .named "A".toUTF8 (.more ⟨#[0xC3]⟩ .lf (.last ⟨#[0xA9]⟩)) .lf

theorem parse_splitLine_ne :
    splitLine.WellFormed ∧ parse (bytesOf [splitLine]) ≠ parse (bytesOf [splitLine.unbroken]) := by
  have hwrapped : parse (bytesOf [splitLine]) = ⟨⟨[("A", "\uFFFD\uFFFD")]⟩, []⟩ := by decide +kernel
  have hplain : parse (bytesOf [splitLine.unbroken]) = ⟨⟨[("A", "é")]⟩, []⟩ := by decide +kernel
  refine ⟨⟨?_, "é", by decide, by decide⟩, ?_⟩
  · rw [Text.ofBytes_toUTF8]
    exact ⟨by decide, by decide, by decide⟩
  · rw [hwrapped, hplain]
    decide

end JarReader.Manifest

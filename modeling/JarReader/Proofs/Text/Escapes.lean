import JarReader.Proofs.Text.Percent
import JarReader.Proofs.Text.Pieces

/-! What decoding takes for an escape: a percent sign with two digits behind it, but also one with a
plus sign and a digit. On texts without the latter it replaces the escapes of two digits and nothing
else, and on all others something else comes out. -/

namespace JarReader.Text.Percent

inductive IsDigit : (x : UInt8) → (n : Nat) → Prop
  | decimal {n : Nat} : n < 10 → IsDigit (.ofNat ('0'.toNat + n)) n
  | upper {n : Nat} : n < 6 → IsDigit (.ofNat ('A'.toNat + n)) (10 + n)
  | lower {n : Nat} : n < 6 → IsDigit (.ofNat ('a'.toNat + n)) (10 + n)

def Writes (high low value : UInt8) : Prop :=
  ∃ h l, IsDigit high h ∧ IsDigit low l ∧ value = .ofNat (16 * h + l)

def WritesSigned (high low value : UInt8) : Prop :=
  high = 0x2B ∧ ∃ l, IsDigit low l ∧ value = .ofNat l

def Reads (high low value : UInt8) : Prop := Writes high low value ∨ WritesSigned high low value

/-- From left to right, each percent sign with an escape behind it becomes, together with the escape,
the byte that is written there, and every other byte stays. -/
inductive Scans (Escape : UInt8 → UInt8 → UInt8 → Prop) : List UInt8 → List UInt8 → Prop
  | nil : Scans Escape [] []
  | escape {high low value : UInt8} {rest out : List UInt8} : Escape high low value →
      Scans Escape rest out → Scans Escape (0x25 :: high :: low :: rest) (value :: out)
  | keep {x : UInt8} {rest out : List UInt8} :
      (∀ high low value more, x :: rest = 0x25 :: high :: low :: more → ¬ Escape high low value) →
      Scans Escape rest out → Scans Escape (x :: rest) (x :: out)

def HasSigned (bytes : List UInt8) : Prop :=
  ∃ low n, IsDigit low n ∧ [0x25, 0x2B, low] <:+: bytes

section Digits

variable {x high low value : UInt8} {n : Nat}

lemma eq_ofNat {first k : Nat} (h : x.toNat = first + k) : x = .ofNat (first + k) := by
  rw [← h, UInt8.ofNat_toNat]

lemma digit?_eq_some_iff : digit? x = some n ↔ IsDigit x n := by
  constructor
  · intro h
    simp only [digit?, Bool.and_eq_true, decide_eq_true_eq, UInt8.le_iff_toNat_le,
      UInt8.reduceToNat] at h
    split at h
    · have hn := Option.some.inj h
      have hx : x.toNat = 0x30 + n := by omega
      rw [eq_ofNat hx]
      exact .decimal (by omega)
    split at h
    · have hn := Option.some.inj h
      obtain ⟨k, rfl⟩ : ∃ k, n = 10 + k := Nat.exists_eq_add_of_le (by omega)
      have hx : x.toNat = 0x41 + k := by omega
      rw [eq_ofNat hx]
      exact .upper (by omega)
    split at h
    · have hn := Option.some.inj h
      obtain ⟨k, rfl⟩ : ∃ k, n = 10 + k := Nat.exists_eq_add_of_le (by omega)
      have hx : x.toNat = 0x61 + k := by omega
      rw [eq_ofNat hx]
      exact .lower (by omega)
    · cases h
  · rintro (h | h | h)
    · decide +revert
    · decide +revert
    · decide +revert

lemma IsDigit.lt (h : IsDigit x n) : n < 16 := by
  cases h <;> omega

lemma IsDigit.ne_signs (h : IsDigit x n) : x ≠ 0x25 ∧ x ≠ 0x2B := by
  rcases h with h | h | h
  · decide +revert
  · decide +revert
  · decide +revert

lemma escaped?_eq_some_iff : escaped? high low = some value ↔ Reads high low value := by
  constructor
  · intro h
    rw [escaped?] at h
    split at h
    · rename_i hplus
      simp only [Option.bind_eq_bind, Option.bind_eq_some_iff, Option.pure_def, Option.some.injEq,
        exists_eq_left', Nat.mul_zero, Nat.zero_add] at h
      obtain ⟨l, hl, rfl⟩ := h
      exact .inr ⟨eq_of_beq hplus, l, digit?_eq_some_iff.mp hl, rfl⟩
    · simp only [Option.bind_eq_bind, Option.bind_eq_some_iff, Option.pure_def,
        Option.some.injEq] at h
      obtain ⟨k, hk, l, hl, rfl⟩ := h
      exact .inl ⟨k, l, digit?_eq_some_iff.mp hk, digit?_eq_some_iff.mp hl, rfl⟩
  · rintro (⟨k, l, hk, hl, rfl⟩ | ⟨rfl, l, hl, rfl⟩)
    · simp [escaped?, hk.ne_signs.2, digit?_eq_some_iff.mpr hk, digit?_eq_some_iff.mpr hl]
    · simp [escaped?, digit?_eq_some_iff.mpr hl]

lemma IsDigit.unique {m : Nat} (h : IsDigit x n) (h' : IsDigit x m) : n = m := by
  rw [← digit?_eq_some_iff] at h h'
  exact Option.some.inj (h.symm.trans h')

lemma Writes.unique {other : UInt8} (h : Writes high low value) (h' : Writes high low other) :
    value = other := by
  obtain ⟨k, l, hk, hl, rfl⟩ := h
  obtain ⟨k', l', hk', hl', rfl⟩ := h'
  rw [hk.unique hk', hl.unique hl']

end Digits

section Scanning

variable {Escape : UInt8 → UInt8 → UInt8 → Prop} {bytes out : List UInt8}

lemma exists_scans (Escape : UInt8 → UInt8 → UInt8 → Prop) (bytes : List UInt8) :
    ∃ out, Scans Escape bytes out := by
  induction hn : bytes.length using Nat.strongRecOn generalizing bytes with
  | ind n ih =>
    subst hn
    cases bytes with
    | nil => exact ⟨[], .nil⟩
    | cons x rest =>
      by_cases h : ∃ high low value more, x :: rest = 0x25 :: high :: low :: more ∧
          Escape high low value
      · obtain ⟨high, low, value, more, he, hescape⟩ := h
        cases he
        obtain ⟨out, hout⟩ := ih more.length (by simp only [List.length_cons]; omega) more rfl
        exact ⟨value :: out, .escape hescape hout⟩
      · obtain ⟨out, hout⟩ := ih rest.length (by simp) rest rfl
        exact ⟨x :: out, .keep (fun high low value more he hescape =>
          h ⟨high, low, value, more, he, hescape⟩) hout⟩

lemma Scans.unique {out' : List UInt8} (h : Scans Escape bytes out) (h' : Scans Escape bytes out')
    (hE : ∀ high low value other, Escape high low value → Escape high low other → value = other) :
    out = out' := by
  induction h generalizing out' with
  | nil =>
    cases h'
    rfl
  | escape he _ ih =>
    cases h' with
    | escape he' hrest => rw [hE _ _ _ _ he he', ih hrest]
    | keep hno _ => exact absurd he (hno _ _ _ _ rfl)
  | keep hno _ ih =>
    cases h' with
    | escape he _ => exact absurd he (hno _ _ _ _ rfl)
    | keep _ hrest => rw [ih hrest]

lemma scans_decodeBytes (bytes : List UInt8) : Scans Reads bytes (decodeBytes bytes) := by
  fun_induction decodeBytes bytes with
  | case1 x high low rest value he ih =>
    split at he
    · rename_i hx
      rw [eq_of_beq hx]
      exact .escape (escaped?_eq_some_iff.mp he) ih
    · cases he
  | case2 x high low rest he ih =>
    refine .keep ?_ ih
    rintro high low value more ⟨⟩ hescape
    rw [← escaped?_eq_some_iff] at hescape
    simp [hescape] at he
  | case3 x rest hshort ih =>
    refine .keep ?_ ih
    rintro high low value more ⟨⟩ _
    exact hshort high low more rfl
  | case4 => exact .nil

end Scanning

section Signed

variable {high low value x : UInt8} {rest bytes read out : List UInt8}

lemma hasSigned_cons (h : ∀ high low value more, x :: rest = 0x25 :: high :: low :: more →
    ¬ WritesSigned high low value) : HasSigned (x :: rest) ↔ HasSigned rest := by
  constructor
  · rintro ⟨low, n, hlow, hinfix⟩
    rcases List.infix_cons_iff.mp hinfix with ⟨more, hmore⟩ | hrest
    · exact absurd ⟨rfl, n, hlow, rfl⟩ (h 0x2B low _ more hmore.symm)
    · exact ⟨low, n, hlow, hrest⟩
  · rintro ⟨low, n, hlow, hinfix⟩
    exact ⟨low, n, hlow, List.infix_cons hinfix⟩

lemma hasSigned_escape (h : Writes high low value) :
    HasSigned (0x25 :: high :: low :: rest) ↔ HasSigned rest := by
  obtain ⟨k, l, hk, hl, _⟩ := h
  rw [hasSigned_cons, hasSigned_cons, hasSigned_cons]
  · rintro _ _ _ _ ⟨⟩ _
    exact hl.ne_signs.1 rfl
  · rintro _ _ _ _ ⟨⟩ _
    exact hk.ne_signs.1 rfl
  · rintro _ _ _ _ ⟨⟩ hsigned
    exact hk.ne_signs.2 hsigned.1

lemma hasSigned_of_signed (h : WritesSigned high low value) :
    HasSigned (0x25 :: high :: low :: rest) := by
  obtain ⟨rfl, l, hl, _⟩ := h
  exact ⟨low, l, hl, (List.prefix_append [0x25, 0x2B, low] rest).isInfix⟩

/-- Up to the first escape with a plus sign there is nothing to choose. It is read as a control
character, and stays, percent sign first, if only digits count. -/
lemma scans_apart (hread : Scans Reads bytes read) (hout : Scans Writes bytes out) :
    (¬ HasSigned bytes ∧ read = out) ∨
      (HasSigned bytes ∧ ∃ before value after kept, value.toNat < 16 ∧
        read = before ++ value :: after ∧ out = before ++ 0x25 :: kept) := by
  induction hread generalizing out with
  | nil =>
    cases hout
    refine .inl ⟨?_, rfl⟩
    rintro ⟨low, n, _, hinfix⟩
    simp at hinfix
  | @escape high low value rest read he hrest ih =>
    rcases he with he | he
    · cases hout with
      | escape he' hkept =>
        rw [hasSigned_escape he, he.unique he']
        rcases ih hkept with ⟨hno, rfl⟩ | ⟨hsigned, before, x, after, kept, hx, rfl, rfl⟩
        · exact .inl ⟨hno, rfl⟩
        · exact .inr ⟨hsigned, _ :: before, x, after, kept, hx, rfl, rfl⟩
      | keep hno _ => exact absurd he (hno _ _ _ _ rfl)
    · cases hout with
      | escape he' _ =>
        obtain ⟨k, _, hk, _⟩ := he'
        exact absurd he.1 hk.ne_signs.2
      | keep _ _ =>
        refine .inr ⟨hasSigned_of_signed he, [], value, read, _, ?_, rfl, rfl⟩
        obtain ⟨_, l, hl, rfl⟩ := he
        have hlt := hl.lt
        rw [UInt8.toNat_ofNat_of_lt' (by simp only [UInt8.size]; omega)]
        exact hlt
  | @keep x rest read hno hrest ih =>
    have hdigits (high low value more : _) (h : x :: rest = 0x25 :: high :: low :: more) :
        ¬ Writes high low value := fun he => hno high low value more h (.inl he)
    cases hout with
    | escape he' _ => exact absurd he' (hdigits _ _ _ _ rfl)
    | keep _ hkept =>
      rw [hasSigned_cons fun high low value more h he => hno high low value more h (.inr he)]
      rcases ih hkept with ⟨hno, rfl⟩ | ⟨hsigned, before, x, after, kept, hx, rfl, rfl⟩
      · exact .inl ⟨hno, rfl⟩
      · exact .inr ⟨hsigned, _ :: before, x, after, kept, hx, rfl, rfl⟩

lemma ofBytes_ascii {value : UInt8} (h : value.toNat < 128) (before after : List UInt8) :
    ofBytes (before ++ value :: after).toByteArray =
      ofBytes before.toByteArray ++
        (String.singleton (.ofNat value.toNat) ++ ofBytes after.toByteArray) := by
  have hc : (String.singleton (.ofNat value.toNat)).toUTF8 = [value].toByteArray := by
    rw [String.toUTF8_eq_toByteArray, String.toByteArray_singleton, List.utf8Encode_singleton,
      utf8EncodeChar_ofNat h, UInt8.ofNat_toNat]
  rw [← ofBytes_around (by simp), hc, ← List.singleton_append, List.toByteArray_append,
    List.toByteArray_append]

lemma ofBytes_ne {before after kept : List UInt8} {value : UInt8} (h : value.toNat < 16) :
    ofBytes (before ++ value :: after).toByteArray ≠
      ofBytes (before ++ 0x25 :: kept).toByteArray := by
  rw [ofBytes_ascii (by omega), ofBytes_ascii (by decide)]
  intro he
  rw [← String.toList_inj] at he
  simp only [String.toList_append, String.toList_singleton, List.singleton_append,
    List.append_cancel_left_eq, List.cons.injEq] at he
  have hvalue := congrArg Char.toNat he.1
  rw [toNat_ofNat (by omega)] at hvalue
  have hpercent : (Char.ofNat (UInt8.toNat 0x25)).toNat = 0x25 := rfl
  omega

end Signed

/-- The text comes out in which the escapes of two digits are replaced and all else stays, unless a
percent sign has a plus sign and a digit behind it: then that is replaced too, and something else
comes out. -/
theorem decode_eq_unescaped_iff (text : String) :
    ∃ out, (∀ bytes, Scans Writes text.toUTF8.data.toList bytes ↔ bytes = out) ∧
      (decode text = ofBytes out.toByteArray ↔ ¬ HasSigned text.toUTF8.data.toList) ∧
      ∃ read, Scans Reads text.toUTF8.data.toList read ∧ decode text = ofBytes read.toByteArray := by
  obtain ⟨out, hout⟩ := exists_scans Writes text.toUTF8.data.toList
  have hread := scans_decodeBytes text.toUTF8.data.toList
  have hunique (bytes : List UInt8) (h : Scans Writes text.toUTF8.data.toList bytes) : bytes = out :=
    h.unique hout fun _ _ _ _ => Writes.unique
  refine ⟨out, fun bytes => ⟨hunique bytes, fun h => h ▸ hout⟩, ?_, _, hread, rfl⟩
  rw [decode]
  rcases scans_apart hread hout with ⟨hno, he⟩ | ⟨hsigned, before, value, after, kept, hlt, he, ho⟩
  · exact iff_of_true (by rw [he]) hno
  · refine iff_of_false ?_ (not_not_intro hsigned)
    rw [he, ho]
    exact ofBytes_ne hlt

theorem decode_signed_ne : ¬ ∃ out, Scans Writes "%+5".toUTF8.data.toList out ∧
    decode "%+5" = ofBytes out.toByteArray := by
  rintro ⟨out, hout, he⟩
  have hsigned : HasSigned "%+5".toUTF8.data.toList :=
    ⟨0x35, 5, digit?_eq_some_iff.mp rfl, [], [], rfl⟩
  rcases scans_apart (scans_decodeBytes _) hout with
    ⟨hno, _⟩ | ⟨_, before, value, after, kept, hlt, hr, rfl⟩
  · exact hno hsigned
  · rw [decode, hr] at he
    exact ofBytes_ne hlt he

end JarReader.Text.Percent

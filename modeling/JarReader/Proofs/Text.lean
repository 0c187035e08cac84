import JarReader.Proofs.Bytes
import JarReader.Text.Utf8

namespace JarReader.Text

open Bytes

lemma ofBytes_toUTF8 (text : String) : ofBytes text.toUTF8 = text := by
  have hv : String.fromUTF8? text.toUTF8 = some text := by
    rw [String.fromUTF8?, String.toUTF8_eq_toByteArray, dif_pos text.isValidUTF8]
    rfl
  rw [ofBytes, hv]

lemma exists_toUTF8_eq {b : ByteArray} (h : b.IsValidUTF8) : ∃ text : String, text.toUTF8 = b :=
  ⟨⟨b, h⟩, rfl⟩

lemma toUTF8_append (s t : String) : (s ++ t).toUTF8 = s.toUTF8 ++ t.toUTF8 :=
  String.toByteArray_append

lemma bytes_toUTF8 (text : String) :
    text.toUTF8.data.toList = text.toList.flatMap String.utf8EncodeChar := by
  rw [String.toUTF8_eq_toByteArray, ← String.utf8Encode_toList, List.utf8Encode]
  simp

lemma utf8EncodeChar_of_mem {c : Char} {x : UInt8} (hx : x ∈ String.utf8EncodeChar c)
    (hlt : x.toNat < 128) : c.toNat = x.toNat ∧ String.utf8EncodeChar c = [x] := by
  have hbyte {n : Nat} (h128 : 128 ≤ n) (h256 : n < 256) : x ≠ .ofNat n := by
    rintro rfl
    rw [UInt8.toNat_ofNat_of_lt' h256] at hlt
    omega
  simp only [String.utf8EncodeChar] at hx ⊢
  split at hx
  · rename_i h
    obtain rfl := List.mem_singleton.mp hx
    have hc : (UInt8.ofNat c.val.toNat).toNat = c.val.toNat :=
      UInt8.toNat_ofNat_of_lt' (show c.val.toNat < 256 by omega)
    exact ⟨hc.symm, if_pos h⟩
  -- in the longer forms every byte is at least 128
  · exfalso
    split at hx
    · simp only [List.mem_cons, List.not_mem_nil, or_false] at hx
      rcases hx with hx | hx <;> exact hbyte (by omega) (by omega) hx
    · split at hx
      · simp only [List.mem_cons, List.not_mem_nil, or_false] at hx
        rcases hx with hx | hx | hx <;> exact hbyte (by omega) (by omega) hx
      · simp only [List.mem_cons, List.not_mem_nil, or_false] at hx
        rcases hx with hx | hx | hx | hx <;> exact hbyte (by omega) (by omega) hx

lemma isValidUTF8_encode_append_iff (cs : List Char) (b : ByteArray) :
    (cs.utf8Encode ++ b).IsValidUTF8 ↔ b.IsValidUTF8 := by
  induction cs with
  | nil => rw [List.utf8Encode_nil, ByteArray.empty_append]
  | cons c cs ih =>
    rw [List.utf8Encode_cons, ByteArray.append_assoc,
      ByteArray.isValidUTF8_utf8Encode_singleton_append_iff, ih]

lemma isValidUTF8_append_iff (s : String) (b : ByteArray) :
    (s.toUTF8 ++ b).IsValidUTF8 ↔ b.IsValidUTF8 := by
  rw [String.toUTF8_eq_toByteArray, ← String.utf8Encode_toList, isValidUTF8_encode_append_iff]

lemma extract_of_decodes {b : ByteArray} {i : Nat} {c : Char} (h : b.utf8DecodeChar? i = some c) :
    b.extract i b.size = [c].utf8Encode ++ b.extract (i + c.utf8Size) b.size := by
  have hle := ByteArray.le_size_of_utf8DecodeChar?_eq_some h
  rw [ByteArray.utf8DecodeChar?_eq_utf8DecodeChar?_extract] at h
  have he := ByteArray.eq_of_utf8DecodeChar?_eq_some h
  rw [← List.utf8Encode_singleton, ByteArray.extract_extract, ByteArray.size_extract] at he
  rw [he]
  congr 2
  omega

lemma toUTF8_singleton_append (c : Char) (text : String) :
    (String.singleton c ++ text).toUTF8 = [c].utf8Encode ++ text.toUTF8 := by
  rw [toUTF8_append, String.toUTF8_eq_toByteArray, String.toByteArray_singleton]

lemma getLast?_singleton_append {c : Char} {text : String} (h : text ≠ "") :
    (String.singleton c ++ text).toList.getLast? = text.toList.getLast? := by
  obtain ⟨x, xs, hx⟩ := List.exists_cons_of_ne_nil (show text.toList ≠ [] by simpa using h)
  simp [hx]

lemma size_encode_singleton (c : Char) : [c].utf8Encode.size = c.utf8Size := by
  rw [List.utf8Encode_singleton, List.size_toByteArray, String.length_utf8EncodeChar]

lemma apart_of_not_decodes {b x y : ByteArray} {c : Char} (h : b.utf8DecodeChar? 0 = none)
    (hl : c.utf8Size ≤ b.size) : b ++ x ≠ [c].utf8Encode ++ y := by
  intro he
  have hs := size_encode_singleton c
  have hb := eq_extract_append hl
  have hc : b.extract 0 c.utf8Size = [c].utf8Encode := by
    rw [hb, ByteArray.append_assoc] at he
    apply ByteArray.append_inj_left he
    rw [hs, ByteArray.size_extract]
    omega
  rw [hb, hc, List.utf8DecodeChar?_utf8Encode_singleton_append] at h
  cases h

lemma le_add_illFormedLength {b : ByteArray} {i : Nat} (hl : b.size ≤ i + 2)
    (h0 : byteAt b i = 0xEF) (h1 : i + 1 < b.size → byteAt b (i + 1) = 0xBF) :
    b.size ≤ i + illFormedLength b i := by
  have hpos := illFormedLength_pos b i
  by_cases hi : i + 1 < b.size
  · have h2 : illFormedLength b i = 2 := by
      rw [illFormedLength, h0, h1 hi]
      rfl
    omega
  · omega

lemma decodeFrom_apart (b : ByteArray) (i : Nat) (done : String) :
    ∃ text : String, decodeFrom b i done = done ++ text ∧
      (¬ (b.extract i b.size).IsValidUTF8 → text.toList.getLast? ≠ some '\uFFFD' →
        ∀ x y : ByteArray, b.extract i b.size ++ x ≠ text.toUTF8 ++ y) := by
  fun_induction decodeFrom b i done with
  | case1 i done hi c hc ih =>
    obtain ⟨text, htext, hapart⟩ := ih
    refine ⟨String.singleton c ++ text, ?_, ?_⟩
    · rw [htext, ← String.append_singleton, String.append_assoc]
    · intro hv hlast x y he
      rw [extract_of_decodes hc] at hv he
      rw [ByteArray.isValidUTF8_utf8Encode_singleton_append_iff] at hv
      rw [toUTF8_singleton_append, ByteArray.append_assoc, ByteArray.append_assoc,
        ByteArray.append_right_inj] at he
      refine hapart hv ?_ x y he
      intro hr
      have hne : text ≠ "" := by
        rintro rfl
        simp at hr
      rw [getLast?_singleton_append hne] at hlast
      contradiction
  | case2 i done hi hc ih =>
    obtain ⟨text, htext, _⟩ := ih
    refine ⟨String.singleton '\uFFFD' ++ text, ?_, ?_⟩
    · rw [htext, ← String.append_singleton, String.append_assoc]
    · intro _ hlast x y
      rw [ByteArray.utf8DecodeChar?_eq_utf8DecodeChar?_extract] at hc
      rw [toUTF8_singleton_append, ByteArray.append_assoc]
      have hs : (b.extract i b.size).size = b.size - i := by
        rw [ByteArray.size_extract, Nat.min_self]
      -- At least three bytes cannot be those of the replacement character; fewer can begin like it,
      -- but then they are one ill-formed part, and the text ends with the character.
      by_cases hl : 3 ≤ b.size - i
      · exact apart_of_not_decodes hc (by rw [hs]; exact hl)
      · intro he
        have hbyte (k : Nat) (hk : i + k < b.size) (h3 : k < 3) :
            byteAt b (i + k) = byteAt ['\uFFFD'].utf8Encode k := by
          have hk' : byteAt _ k = byteAt _ k := congrArg (byteAt · k) he
          rw [byteAt_append_left (by omega), byteAt_extract (by omega)] at hk'
          rw [hk', byteAt_append_left h3]
        have hend : b.size ≤ i + illFormedLength b i :=
          le_add_illFormedLength (by omega) (hbyte 0 hi (by omega)) fun h1 => hbyte 1 h1 (by omega)
        have hnone : text = "" := by
          rw [decodeFrom, if_neg (by omega)] at htext
          simpa using congrArg String.toList htext
        simp [hnone] at hlast
  | case3 i done hi =>
    refine ⟨"", by simp, fun hv => ?_⟩
    have he : b.extract i b.size = .empty := by
      rw [ByteArray.extract_eq_empty_iff]
      omega
    rw [he] at hv
    exact absurd ByteArray.isValidUTF8_empty hv

lemma ofBytes_apart {b : ByteArray} (h : ¬ b.IsValidUTF8)
    (hlast : (ofBytes b).toList.getLast? ≠ some '\uFFFD') (x y : ByteArray) :
    b ++ x ≠ (ofBytes b).toUTF8 ++ y := by
  have hb : ofBytes b = decodeFrom b 0 "" := by
    rw [ofBytes, String.fromUTF8?, dif_neg h]
  obtain ⟨text, htext, hapart⟩ := decodeFrom_apart b 0 ""
  rw [String.empty_append] at htext
  rw [hb, htext] at hlast ⊢
  have hz : b.extract 0 b.size = b := ByteArray.extract_zero_size
  rw [hz] at hapart
  exact hapart h hlast x y

end JarReader.Text
